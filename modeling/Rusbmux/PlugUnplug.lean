import Rusbmux.NetworkIds

/-! A USB device that comes and goes while its network twin is connected: the
Connected and the Disconnected branch of `watch_usb_daemon` and `remove_device`. -/
namespace Rusbmux

/-- The devices with every event broadcast. -/
structure DeviceLog where
  objects : DeviceObjects
  sent : List DeviceEvent

namespace DeviceLog

abbrev Action := DeviceObjects.Action

/-- The event that a step broadcasts. -/
def sends (s : DeviceObjects) : Action → Option DeviceEvent
  | .daemon a => (s.daemon.step a).bind Prod.snd
  | _ => none

def step (s : DeviceLog) (a : Action) : Option DeviceLog :=
  (s.objects.step a).map fun t => ⟨t, s.sent ++ (sends s.objects a).toList⟩

def start : DeviceLog := ⟨.start, []⟩

/-- The device is in the map under the id, and is not shut down. -/
def HasLive (s : DeviceLog) (id : ℕ) (device : Device) : Prop :=
  s.objects.daemon.devices.get id = some device ∧
    ∃ o ∈ s.objects.objects, o.id = id ∧ o.device = device ∧ o.listed = true ∧
      o.cancelled = false

/-- The device is there as before, and `Attached` has been broadcast for it. -/
structure Restored (before after : DeviceLog) (id : ℕ) (device : Device) : Prop where
  live : after.HasLive id device
  attached : .attached id ∈ after.sent.drop before.sent.length

/-- The network device under the id has left the map and is shut down. -/
structure ThrownOut (s : DeviceObjects) (id : ℕ) (device : Device) : Prop where
  network : s.daemon.OfNetwork id
  entry : s.daemon.devices.get id = none
  object : ∃ o ∈ s.objects, o.id = id ∧ o.device = device ∧ o.listed = false ∧
    o.cancelled = true

/-- What a run keeps of the devices, from the empty daemon on. -/
structure Kept (s : DeviceObjects) : Prop where
  apart : s.daemon.Apart
  held : ∀ o ∈ s.objects, o.Held

/-- The device is still in the map, and the arrival of its twin is handled. -/
def StillThere (s : DeviceObjects) (n : ℕ) (device : Device) (id : ℕ) (info : DeviceInfo) :
    Prop :=
  s.daemon.devices.get n = some device ∧ s.daemon.usb = .arrived id info ∧
    ∃ o ∈ s.objects, o.id = n ∧ o.device = device ∧ o.listed = true

theorem kept_start : Kept DeviceObjects.start := by
  refine ⟨Daemon.apart_start, ?_⟩
  intro o ho
  cases ho

variable {s t : DeviceObjects} {a : Action} {n id : ℕ} {mac : String} {info : DeviceInfo}
  {device : Device}

theorem held_modify {objects : List DeviceObject} (k : ℕ) (f : DeviceObject → DeviceObject)
    (hf : ∀ o, o.Held → (f o).Held) (h : ∀ o ∈ objects, o.Held) :
    ∀ o ∈ objects.modify k f, o.Held := by
  intro o ho
  obtain ⟨former, hformer, hcases⟩ := DeviceObjects.mem_of_mem_modify ho
  cases hcases with
  | inl heq => exact heq ▸ h former hformer
  | inr heq => exact heq ▸ hf former (h former hformer)

theorem Kept.step (hs : Kept s) (h : s.step a = some t) : Kept t := by
  cases a with
  | daemon a =>
    obtain ⟨⟨d', ev⟩, hstep, rfl⟩ := Option.map_eq_some_iff.mp h
    refine ⟨hs.apart.step hstep, ?_⟩
    intro o ho
    cases List.mem_append.mp ho with
    | inl hnew =>
      obtain ⟨entry, -, rfl⟩ := Option.map_eq_some_iff.mp (Option.mem_toList.mp hnew)
      exact DeviceObject.held_new _ _
    | inr hold =>
      obtain ⟨former, hformer, rfl⟩ := List.mem_map.mp hold
      exact DeviceObjects.settle_held (hs.held former hformer) _ a
  | readerEnds k =>
    cases h
    exact ⟨hs.apart, held_modify k _ (fun o ho => ho.endReader) hs.held⟩
  | writerEnds k =>
    cases h
    exact ⟨hs.apart, held_modify k _ (fun o ho => ho.endWriter) hs.held⟩
  | cleanup k =>
    cases h
    refine ⟨hs.apart, held_modify k _ (fun o ho => ?_) hs.held⟩
    split_ifs
    · exact ho.shutdown
    · exact ho

/-- A task of one object, or `cleanup`, leaves the map as it is. -/
theorem step_cases (h : s.step a = some t) :
    (∃ b r, a = .daemon b ∧ s.daemon.step b = some r ∧ t.daemon = r.1 ∧
      ∀ o ∈ s.objects, s.daemon.settle b o ∈ t.objects) ∨
    t.daemon = s.daemon ∧ ∀ o ∈ s.objects, ∃ later ∈ t.objects, later.id = o.id ∧
      later.device = o.device ∧ later.listed = o.listed ∧
        (o.cancelled = true → later.cancelled = true) := by
  have hmodify (k : ℕ) (f : DeviceObject → DeviceObject)
      (hf : ∀ o, (f o).id = o.id ∧ (f o).device = o.device ∧ (f o).listed = o.listed ∧
        (o.cancelled = true → (f o).cancelled = true)) :
      ∀ o ∈ s.objects, ∃ later ∈ s.objects.modify k f, later.id = o.id ∧
        later.device = o.device ∧ later.listed = o.listed ∧
          (o.cancelled = true → later.cancelled = true) := by
    intro o ho
    cases DeviceObjects.mem_modify k f ho with
    | inl hmem => exact ⟨o, hmem, rfl, rfl, rfl, fun hc => hc⟩
    | inr hmem => exact ⟨f o, hmem, hf o⟩
  cases a with
  | daemon b =>
    obtain ⟨r, hstep, rfl⟩ := Option.map_eq_some_iff.mp h
    refine .inl ⟨b, r, rfl, hstep, rfl, fun o ho => ?_⟩
    exact List.mem_append_right _ (List.mem_map_of_mem ho)
  | readerEnds k =>
    cases h
    exact .inr ⟨rfl, hmodify k _ fun o =>
      DeviceObjects.dropLoose_fields { o with reader := false }⟩
  | writerEnds k =>
    cases h
    refine .inr ⟨rfl, hmodify k _ fun o => ?_⟩
    unfold DeviceObject.endWriter
    split_ifs
    · exact DeviceObjects.dropLoose_fields { o with writer := false }
    · exact ⟨rfl, rfl, rfl, fun hc => hc⟩
  | cleanup k =>
    cases h
    refine .inr ⟨rfl, hmodify k _ fun o => ?_⟩
    split_ifs
    · exact ⟨rfl, rfl, rfl, fun _ => rfl⟩
    · exact ⟨rfl, rfl, rfl, fun hc => hc⟩

/-- A network device that is out of the map stays out of it, and shut down. -/
theorem ThrownOut.step (hs : Kept s) (hout : ThrownOut s n device) (h : s.step a = some t) :
    ThrownOut t n device := by
  obtain ⟨hn, hnone, o, ho, hid, hdevice, hlisted, hcancelled⟩ := hout
  rcases step_cases h with ⟨b, r, -, hstep, hdaemon, hsettle⟩ | ⟨hdaemon, hlater⟩
  · have hsame : s.daemon.settle b o = o := by
      unfold Daemon.settle
      simp only [hlisted, Bool.not_false, if_true]
    refine ⟨?_, ?_, o, hsame ▸ hsettle o ho, hid, hdevice, hlisted, hcancelled⟩
    · rw [hdaemon]
      exact hn.step hs.apart.vacant hstep
    · rw [hdaemon]
      exact hn.get_eq_none_step hs.apart.vacant hnone hstep
  · obtain ⟨later, hmem, hlid, hldevice, hllisted, hlcancelled⟩ := hlater o ho
    refine ⟨hdaemon ▸ hn, hdaemon ▸ hnone, later, hmem, ?_⟩
    exact ⟨hlid.trans hid, hldevice.trans hdevice, hllisted.trans hlisted, hlcancelled hcancelled⟩

/-- Only `retain` ends the first phase of an arrival. -/
theorem usb_of_arrived {d d' : Daemon} {b : Daemon.Action} {ev : Option DeviceEvent}
    (hu : d.usb = .arrived id info) (hb : b ≠ .usbRetain) (h : d.step b = some (d', ev)) :
    d'.usb = .arrived id info := by
  cases Daemon.move_of_step h with
  | usbRetain => exact absurd rfl hb
  | usbConnected _ _ _ hidle | usbDisconnected _ _ hidle | deviceNotFound _ hidle
  | notice _ _ hidle =>
    rw [hu] at hidle
    cases hidle
  | usbInsert _ _ hother | shutdownFails _ _ hother | announceTwin _ _ _ hother | left _ hother
  | lost _ _ hother | reopenFails _ _ hother | reopen _ _ hother | reopened _ hother =>
    rw [hu] at hother
    cases hother
  | _ => exact hu

/-- A step takes the device out of the map, other than by an insert over it. -/
def takesOut (d : Daemon) (b : Daemon.Action) (n : ℕ) (device : Device) : Bool :=
  Daemon.shutsDown n b || d.clears device b

theorem not_takesOut_iff {d : Daemon} {b : Daemon.Action} :
    takesOut d b n device = false ↔
      Daemon.shutsDown n b = false ∧ d.clears device b = false :=
  Bool.or_eq_false_iff

theorem not_inserts_any {d : Daemon} (hd : d.Apart) (hn : d.OfNetwork n) (b : Daemon.Action) :
    (d.inserts b).any (fun e => e.1 == n) = false := by
  cases hb : d.inserts b with
  | none => rfl
  | some entry =>
    have hne : entry.1 ≠ n := by
      intro heq
      exact hn.not_inserts hd.vacant b entry.2 (by rw [hb, ← heq])
    simpa using hne

/-- A network device that a step takes out is shut down by it: whoever does not
call `shutdown` drops the device. -/
theorem settle_network {d : Daemon} {b : Daemon.Action} {o : DeviceObject} (ho : o.Held)
    (hnetwork : o.device.isUsb = false) (hlisted : o.listed = true)
    (hins : (d.inserts b).any (fun e => e.1 == o.id) = false) :
    (takesOut d b o.id o.device = false → d.settle b o = o) ∧
      (takesOut d b o.id o.device = true →
        (d.settle b o).listed = false ∧ (d.settle b o).cancelled = true) := by
  unfold takesOut Daemon.settle
  rw [hlisted, hins]
  cases hshut : Daemon.shutsDown o.id b with
  | true =>
    refine ⟨nofun, fun _ => ⟨o.shutdown.release_fields.2.2, ?_⟩⟩
    exact ho.shutdown.release_cancelled.mpr (.inl rfl)
  | false =>
    cases hclears : d.clears o.device b with
    | true =>
      refine ⟨nofun, fun _ => ⟨o.release_fields.2.2, ?_⟩⟩
      exact ho.release_cancelled.mpr (.inr hnetwork)
    | false => exact ⟨fun _ => rfl, nofun⟩

/-- The entry after a step that may take it out. -/
theorem get_of_takesOut {d d' : Daemon} {b : Daemon.Action} {ev : Option DeviceEvent}
    (hd : d.Apart) (hn : d.OfNetwork n) (hget : d.devices.get n = some device)
    (h : d.step b = some (d', ev)) :
    d'.devices.get n = if takesOut d b n device then none else some device := by
  cases hout : takesOut d b n device with
  | true =>
    apply Option.eq_none_iff_forall_ne_some.mpr
    intro e he
    cases (hd.vacant.get_step h n e).mp he with
    | inl hins => exact hn.not_inserts hd.vacant b e hins
    | inr hkept =>
      obtain ⟨heq, hstay⟩ := hkept
      cases hget.symm.trans heq
      rw [not_takesOut_iff.mpr hstay] at hout
      cases hout
  | false => exact (hd.vacant.get_step h n device).mpr (.inr ⟨hget, not_takesOut_iff.mp hout⟩)

/-- The retain by serial number throws the network twin out. -/
theorem StillThere.step (hs : Kept s)
    (hthere : StillThere s n (.network mac (Device.usb info).serialNumber) id info)
    (h : s.step a = some t) :
    StillThere t n (.network mac (Device.usb info).serialNumber) id info ∨
      ThrownOut t n (.network mac (Device.usb info).serialNumber) := by
  obtain ⟨hget, hu, o, ho, hid, hdevice, hlisted⟩ := hthere
  rcases step_cases h with ⟨b, ⟨d', ev⟩, -, hstep, hdaemon, hsettle⟩ | ⟨hdaemon, hlater⟩
  · have hn := hs.apart.network n _ _ hget
    have hentry := get_of_takesOut hs.apart hn hget hstep
    obtain ⟨hsid, hsdevice⟩ := DeviceObjects.settle_fields s.daemon b o
    have hnetwork : o.device.isUsb = false := by
      rw [hdevice]
      rfl
    have hins := not_inserts_any hs.apart hn b
    rw [← hid] at hins
    have hobject := settle_network (hs.held o ho) hnetwork hlisted hins
    rw [hid, hdevice] at hobject
    cases hout : takesOut s.daemon b n (.network mac (Device.usb info).serialNumber) with
    | true =>
      rw [hout] at hentry
      have hlater : t.daemon.OfNetwork n := hdaemon ▸ hn.step hs.apart.vacant hstep
      refine .inr ⟨hlater, hdaemon ▸ hentry, _, hsettle o ho, ?_⟩
      exact ⟨hsid.trans hid, hsdevice.trans hdevice, hobject.2 hout⟩
    | false =>
      rw [hout] at hentry
      have hb : b ≠ .usbRetain := by
        intro heq
        have hclears := (not_takesOut_iff.mp hout).2
        simp only [heq, Daemon.clears, hu, beq_eq_false_iff_ne] at hclears
        exact hclears rfl
      refine .inl ⟨hdaemon ▸ hentry, ?_, _, hsettle o ho, hsid.trans hid, ?_⟩
      · rw [hdaemon]
        exact usb_of_arrived hu hb hstep
      · have hlast := (congrArg DeviceObject.listed (hobject.1 hout)).trans hlisted
        exact ⟨hsdevice.trans hdevice, hlast⟩
  · obtain ⟨later, hmem, hlid, hldevice, hllisted, -⟩ := hlater o ho
    refine .inl ⟨hdaemon ▸ hget, hdaemon ▸ hu, later, hmem, ?_⟩
    exact ⟨hlid.trans hid, hldevice.trans hdevice, hllisted.trans hlisted⟩

theorem objects_of_step {s t : DeviceLog} (h : s.step a = some t) :
    s.objects.step a = some t.objects := by
  obtain ⟨u, hu, rfl⟩ := Option.map_eq_some_iff.mp h
  exact hu

/-- What every step of the devices keeps holds after a run. -/
theorem objects_induction {P : DeviceObjects → Prop}
    (hstep : ∀ s a t, P s → DeviceObjects.step s a = some t → P t) {s t : DeviceLog}
    (hs : P s.objects) {as : List Action} (h : StepSystem.after step s as = some t) :
    P t.objects := by
  have hlog (s : DeviceLog) (a : Action) (t : DeviceLog) (hs : P s.objects)
      (h : s.step a = some t) : P t.objects := hstep s.objects a t.objects hs (objects_of_step h)
  have hrun := StepSystem.after_induction hlog hs h
  exact hrun

/-- The arrival of the USB device begins, whatever happens, its hotplug removal
begins, and whatever happens. -/
def plugUnplug (id : ℕ) (info : DeviceInfo) (twin : Option ℕ) (cs ds : List Action) :
    List Action :=
  .daemon (.usbConnected id info twin) :: cs ++ .daemon (.usbDisconnected id) :: ds

/-- The arrival leaves the network device where it is, to be thrown out next. -/
theorem stillThere_of_usbConnected {twin : Option ℕ} {s t : DeviceLog}
    (hlive : s.HasLive n device) (h : s.step (.daemon (.usbConnected id info twin)) = some t) :
    StillThere t.objects n device id info := by
  obtain ⟨⟨d', ev⟩, hstep, hobjects⟩ := Option.map_eq_some_iff.mp (objects_of_step h)
  obtain ⟨hget, o, ho, hid, hdevice, hlisted, -⟩ := hlive
  have hsame : s.objects.daemon.settle (.usbConnected id info twin) o = o := by
    simp [Daemon.settle, Daemon.shutsDown, Daemon.clears, Daemon.inserts]
  have hmem : o ∈ t.objects.objects := by
    rw [← hobjects, ← hsame]
    exact List.mem_append_right _ (List.mem_map_of_mem ho)
  have hdaemon : t.objects.daemon = d' := by rw [← hobjects]
  cases Daemon.move_of_step hstep with
  | usbConnected =>
    refine ⟨?_, ?_, o, hmem, hid, hdevice, hlisted⟩
    · rw [hdaemon]
      exact hget
    · rw [hdaemon]
  | takeNetwork _ _ _ _ ha => rcases ha with ha | ha <;> cases ha

/-- The removal of a USB device is taken up when the arrival is done. -/
theorem idle_of_usbDisconnected {s t : DeviceObjects}
    (h : s.step (.daemon (.usbDisconnected id)) = some t) : s.daemon.usb = .idle := by
  obtain ⟨⟨d', ev⟩, hstep, -⟩ := Option.map_eq_some_iff.mp h
  cases Daemon.move_of_step hstep with
  | usbDisconnected _ _ hu => exact hu
  | deviceNotFound _ hu => exact hu
  | takeNetwork _ _ _ _ ha => rcases ha with ha | ha <;> cases ha

section

variable {as cs ds : List Action} {twin : Option ℕ} {s t : DeviceLog}

/-- After the arrival and the removal of its USB twin, a network device has left
the map for good and is shut down. -/
theorem thrownOut_of_plugUnplug (hs : StepSystem.after step start as = some s)
    (hlive : s.HasLive n (.network mac (Device.usb info).serialNumber))
    (h : StepSystem.after step s (plugUnplug id info twin cs ds) = some t) :
    ThrownOut t.objects n (.network mac (Device.usb info).serialNumber) := by
  have hkept : Kept s.objects :=
    objects_induction (fun _ _ _ hs h => hs.step h) kept_start hs
  -- the run in its four parts
  have hrun : StepSystem.after step s (.daemon (.usbConnected id info twin) ::
      (cs ++ .daemon (.usbDisconnected id) :: ds)) = some t := h
  obtain ⟨plugged, hplug, hrest⟩ := Option.bind_eq_some_iff.mp hrun
  rw [StepSystem.after_append] at hrest
  obtain ⟨before, hbefore, hrest⟩ := Option.bind_eq_some_iff.mp hrest
  obtain ⟨unplugged, hunplug, hafter⟩ := Option.bind_eq_some_iff.mp hrest
  have harrival : Kept before.objects ∧
      (StillThere before.objects n (.network mac (Device.usb info).serialNumber) id info ∨
        ThrownOut before.objects n (.network mac (Device.usb info).serialNumber)) := by
    refine objects_induction (P := fun u => Kept u ∧
      (StillThere u n (.network mac (Device.usb info).serialNumber) id info ∨
        ThrownOut u n (.network mac (Device.usb info).serialNumber)))
      (fun s a t hs h => ⟨hs.1.step h, ?_⟩)
      ⟨hkept.step (objects_of_step hplug), ?_⟩ hbefore
    · cases hs.2 with
      | inl hthere => exact hthere.step hs.1 h
      | inr hout => exact .inr (hout.step hs.1 h)
    · exact .inl (stillThere_of_usbConnected hlive hplug)
  have hout : ThrownOut before.objects n (.network mac (Device.usb info).serialNumber) := by
    refine harrival.2.resolve_left ?_
    intro hthere
    have hidle := idle_of_usbDisconnected (objects_of_step hunplug)
    rw [hthere.2.1] at hidle
    cases hidle
  have hremoval : Kept t.objects ∧
      ThrownOut t.objects n (.network mac (Device.usb info).serialNumber) := by
    refine objects_induction (P := fun u => Kept u ∧
      ThrownOut u n (.network mac (Device.usb info).serialNumber))
      (fun s a t hs h => ⟨hs.1.step h, hs.2.step hs.1 h⟩) ?_ hafter
    have hstep := objects_of_step hunplug
    exact ⟨harrival.1.step hstep, hout.step harrival.1 hstep⟩
  exact hremoval.2

end

/-- A network device with the serial number `A` is added. -/
def networkAdded : List Action :=
  [.daemon (.serviceResolved 0 "m" "A"), .daemon (.networkInsert 0), .daemon (.networkCheck 0),
    .daemon (.networkAttached 0)]

/-- The state with the network device alone. -/
def withNetwork : DeviceLog :=
  ⟨⟨⟨.insert .empty 0 (.network "m" "A"), [0], .empty, .idle, .empty, .empty⟩,
    [⟨0, .network "m" "A", true, false, false, false⟩]⟩, [.attached 0]⟩

theorem withNetwork_hasLive : withNetwork.HasLive 0 (.network "m" "A") :=
  ⟨rfl, _, List.mem_singleton_self _, rfl, rfl, rfl, rfl⟩

/-- What is left when its USB twin was inserted, and removed without an error. -/
def withNothing : DeviceLog :=
  ⟨⟨⟨.empty, [1, 0], .insert .empty 1 9, .idle, .empty, .empty⟩,
    [⟨1, .usb ⟨APPLE_VID, some "A", 9⟩, false, true, true, true⟩,
      ⟨0, .network "m" "A", false, true, false, false⟩]⟩, [.attached 0, .detached 0, .detached 1]⟩

end DeviceLog

end Rusbmux
