import Rusbmux.NetworkEntries

/-! An id that a network device has had is never one of a USB device, and no
device gets it again. -/
namespace Rusbmux

namespace Daemon

/-- A network device has had the id. -/
structure OfNetwork (d : Daemon) (n : ℕ) : Prop where
  known : n ∈ d.ids
  reader : d.readers.get n = none
  gone : d.usb.gone ≠ some n
  entry : ∀ info, d.devices.get n ≠ some (.usb info)

/-- The ids of network devices and those of USB devices are apart. -/
structure Apart (d : Daemon) : Prop where
  vacant : d.Vacant
  network : ∀ n mac serial, d.devices.get n = some (.network mac serial) → d.OfNetwork n
  removing : ∀ n task, d.removing.get n = some task → d.OfNetwork n

theorem apart_start : start.Apart := by
  refine ⟨vacant_start, ?_, ?_⟩
  · intro n mac serial h
    cases h
  · intro n task h
    cases h

variable {reads : SerialReads} {d d' : Daemon} {a : Action} {ev : Option DeviceEvent} {n : ℕ}

theorem OfNetwork.step (hv : d.Vacant) (h : d.OfNetwork n)
    (hstep : d.stepRead reads a = some (d', ev)) : d'.OfNetwork n := by
  have hnone {k : ℕ} : (none : Option ℕ) ≠ some k := nofun
  -- entries that go leave no USB device behind
  have hless {devices : Registry}
      (hdevices : ∀ e, devices.get n = some e → d.devices.get n = some e) (info : DeviceInfo) :
      devices.get n ≠ some (.usb info) := fun he => h.entry info (hdevices _ he)
  have hretain (p : ℕ → Device → Bool) (e : Device)
      (he : (d.devices.retain p).get n = some e) : d.devices.get n = some e :=
    ((KeyTable.get_retain_eq_some_iff _ _ n e).mp he).1
  have hremove (id : ℕ) (e : Device) (he : (d.devices.remove id).get n = some e) :
      d.devices.get n = some e := ((get_remove_iff d.devices id n e).mp he).1
  cases move_of_stepRead hstep with
  | usbConnected id info twin hu hid htwin => exact ⟨h.known, h.reader, hnone, h.entry⟩
  | usbRetain id info hu => exact ⟨h.known, h.reader, hnone, hless (hretain _)⟩
  | usbInsert id info hu =>
    -- the id of a device that arrives is new
    have hne : n ≠ id := by
      intro heq
      exact (hv.arrival id (by rw [hu]; rfl)).1 (heq ▸ h.known)
    refine ⟨List.mem_cons_of_mem _ h.known, ?_, hnone, ?_⟩
    · exact (KeyTable.get_insert_of_ne _ _ hne).trans h.reader
    · intro i he
      rw [KeyTable.get_insert_of_ne _ _ hne] at he
      exact h.entry i he
  | usbDisconnected id info hu he =>
    refine ⟨h.known, h.reader, ?_, hless (hremove id)⟩
    intro hid
    cases hid
    -- the entry that goes is a USB device
    exact h.entry info he
  | deviceNotFound id hu he => exact h
  | shutdownFails id info hu => exact ⟨h.known, h.reader, hnone, h.entry⟩
  | announceTwin id info twin hu htwin =>
    refine ⟨h.known, h.reader, ?_, h.entry⟩
    have hgone := h.gone
    rw [hu] at hgone
    exact hgone
  | left id hu => exact ⟨h.known, h.reader, hnone, h.entry⟩
  | notice id o hu ho =>
    refine ⟨h.known, ?_, ?_, hless (hretain _)⟩
    · rw [KeyTable.get_remove, h.reader, ite_self]
    · intro hid
      cases hid
      -- a notice comes from a reader loop, and a network device has none
      rw [h.reader] at ho
      cases ho
  | lost id o hu =>
    refine ⟨h.known, h.reader, ?_, h.entry⟩
    have hgone := h.gone
    rw [hu] at hgone
    exact hgone
  | reopenFails id o hu => exact ⟨h.known, h.reader, hnone, h.entry⟩
  | reopen id info hu =>
    have hne : n ≠ id := by
      intro heq
      -- what comes back was gone, which a network device never is
      exact h.gone (by rw [hu, heq]; rfl)
    refine ⟨h.known, ?_, hnone, ?_⟩
    · exact (KeyTable.get_insert_of_ne _ _ hne).trans h.reader
    · intro i he
      rw [KeyTable.get_insert_of_ne _ _ hne] at he
      exact h.entry i he
  | reopened id hu => exact ⟨h.known, h.reader, hnone, h.entry⟩
  | networkInsert id mac serial ht =>
    refine ⟨List.mem_cons_of_mem _ h.known, h.reader, h.gone, ?_⟩
    intro i he
    rw [KeyTable.get_insert] at he
    split_ifs at he
    · cases he
    · exact h.entry i he
  | takeNetwork _ id mac serial ha he => exact ⟨h.known, h.reader, h.gone, hless (hremove id)⟩
  | _ => exact ⟨h.known, h.reader, h.gone, h.entry⟩

/-- No step inserts a device under an id that a network device has had. -/
theorem OfNetwork.not_inserts (hv : d.Vacant) (h : d.OfNetwork n) (a : Action) (e : Device) :
    d.inserts a ≠ some (n, e) := by
  intro hins
  unfold inserts at hins
  repeat' split at hins
  all_goals cases hins
  next hu => exact (hv.arrival n (by rw [hu]; rfl)).1 h.known
  next hu => exact h.gone (by rw [hu]; rfl)
  next ht => exact hv.connecting n _ _ ht h.known

/-- An entry that is out of the map stays out of it. -/
theorem OfNetwork.get_eq_none_step (hv : d.Vacant) (h : d.OfNetwork n)
    (hnone : d.devices.get n = none) (hstep : d.stepRead reads a = some (d', ev)) :
    d'.devices.get n = none := by
  apply Option.eq_none_iff_forall_ne_some.mpr
  intro e he
  cases inserts_or_get_of_step hstep he with
  | inl hins => exact h.not_inserts hv a e hins
  | inr hkept =>
    rw [hnone] at hkept
    cases hkept

/-- A task that is about to insert a network device has an id of its own. -/
theorem Vacant.ofNetwork_inserted (h : d.Vacant) {mac serial : String}
    (ht : d.adding.get n = some (.connecting mac serial))
    (hstep : d.stepRead reads (.networkInsert n) = some (d', ev)) : d'.OfNetwork n := by
  have hn := h.connecting n mac serial ht
  have hins : d.inserts (.networkInsert n) = some (n, .network mac serial) := by
    simp only [inserts, ht]
  cases move_of_stepRead hstep with
  | networkInsert _ m name hm =>
    refine ⟨List.mem_cons_self, ?_, ?_, ?_⟩
    · apply Option.eq_none_iff_forall_ne_some.mpr
      intro o ho
      exact hn (h.reader n o ho).1
    · intro hgone
      exact hn (h.gone n hgone).1
    · intro info he
      rw [KeyTable.get_insert_self] at he
      cases he
  | takeNetwork _ id m name ha he => rcases ha with ha | ha <;> cases ha

theorem Apart.step (h : d.Apart) (hstep : d.stepRead reads a = some (d', ev)) : d'.Apart := by
  refine ⟨h.vacant.step hstep, ?_, ?_⟩
  · intro n mac serial hn
    cases inserts_or_get_of_step hstep hn with
    | inl hins =>
      obtain ⟨rfl, ht⟩ := network_of_inserts hins
      exact h.vacant.ofNetwork_inserted ht hstep
    | inr hkept => exact (h.network n mac serial hkept).step h.vacant hstep
  · intro n task hn
    have hold (told : RemoveTask) (ht : d.removing.get n = some told) : d'.OfNetwork n :=
      (h.removing n told ht).step h.vacant hstep
    cases move_of_stepRead hstep with
    | takeNetwork _ id mac serial ha he =>
      by_cases hne : n = id
      · subst hne
        exact (h.network n mac serial he).step h.vacant hstep
      · exact hold task ((KeyTable.get_insert_of_ne _ _ hne).symm.trans hn)
    | removalCovered id serial ht hu =>
      rw [KeyTable.get_remove] at hn
      split_ifs at hn
      exact hold task hn
    | removalShown id serial ht hu =>
      by_cases hne : n = id
      · exact hold _ (hne ▸ ht)
      · exact hold task ((KeyTable.get_insert_of_ne _ _ hne).symm.trans hn)
    | removalDetached id ht =>
      rw [KeyTable.get_remove] at hn
      split_ifs at hn
      exact hold task hn
    | _ => exact hold task hn

end Daemon

end Rusbmux
