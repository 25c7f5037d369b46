import Rusbmux.DeviceObjects

/-! `network_device_add` of src/watcher/network.rs, spawned for every service that
is resolved: its check for an entry with the serial number and its insert are
apart by the connection to the device. -/
namespace Rusbmux

namespace Daemon

/-- A step of the daemon, whatever event it sends. -/
def next (d : Daemon) (a : Action) : Option Daemon := (d.step a).map Prod.fst

variable (d : Daemon)

/-- No two network devices in the map have a serial number in common. -/
def AtMostOneNetwork : Prop :=
  ∀ i j mac mac' serial, d.devices.get i = some (.network mac serial) →
    d.devices.get j = some (.network mac' serial) → i = j

/-- A task that has its connection finds no entry with its serial number that
another task has inserted since its check. -/
def InsertsFirst : Action → Prop
  | .networkInsert id => ∀ mac serial, d.adding.get id = some (.connecting mac serial) →
    d.devices.hasNetwork serial = false
  | _ => True

/-- A service is taken up only while no task connects to a device with its
serial number. -/
def ResolvesAlone : Action → Prop
  | .serviceResolved _ _ serial => d.devices.hasNetwork serial = false →
    ∀ i mac, d.adding.get i ≠ some (.connecting mac serial)
  | _ => True

/-- The tasks that connect, each the only one for its serial number, which no
network device in the map has. -/
structure Alone : Prop where
  unique : ∀ i j mac mac' serial, d.adding.get i = some (.connecting mac serial) →
    d.adding.get j = some (.connecting mac' serial) → i = j
  first : ∀ i mac serial, d.adding.get i = some (.connecting mac serial) →
    d.devices.hasNetwork serial = false

variable {d} {d' : Daemon} {a : Action} {ev : Option DeviceEvent}

theorem exists_step_of_next (h : d.next a = some d') : ∃ ev, d.step a = some (d', ev) := by
  obtain ⟨r, hr, hd⟩ := Option.map_eq_some_iff.mp h
  exact ⟨r.2, by rw [hr, ← hd]⟩

/-- A network device comes into the map by its task alone. -/
theorem network_of_inserts {id : ℕ} {mac serial : String}
    (h : d.inserts a = some (id, .network mac serial)) :
    a = .networkInsert id ∧ d.adding.get id = some (.connecting mac serial) := by
  unfold inserts at h
  repeat' split at h
  all_goals cases h
  next ht => exact ⟨rfl, ht⟩

theorem Vacant.atMostOne_step (hv : d.Vacant) (h : d.AtMostOneNetwork) (hf : d.InsertsFirst a)
    (hstep : d.step a = some (d', ev)) : d'.AtMostOneNetwork := by
  -- an entry that was there before a new one with its serial number
  have hnone (i j : ℕ) (mac mac' serial : String)
      (hins : d.inserts a = some (i, .network mac serial)) :
      d.devices.get j ≠ some (.network mac' serial) := by
    intro hj
    obtain ⟨ha, ht⟩ := network_of_inserts hins
    subst ha
    have hfalse := hf mac serial ht
    have htrue := Registry.hasNetwork_eq_true_iff.mpr ⟨j, mac', hj⟩
    rw [hfalse] at htrue
    cases htrue
  intro i j mac mac' serial hi hj
  rw [hv.get_step hstep] at hi hj
  cases hi with
  | inl hi =>
    cases hj with
    | inl hj =>
      rw [hi] at hj
      cases hj
      rfl
    | inr hj => exact absurd hj.1 (hnone i j mac mac' serial hi)
  | inr hi =>
    cases hj with
    | inl hj => exact absurd hi.1 (hnone j i mac' mac serial hj)
    | inr hj => exact h i j mac mac' serial hi.1 hj.1

/-- An insert beside an entry with the serial number shows at once. -/
theorem Vacant.insertsFirst_of_atMostOne (hv : d.Vacant) (hstep : d.step a = some (d', ev))
    (h : d'.AtMostOneNetwork) : d.InsertsFirst a := by
  unfold InsertsFirst
  split
  · rename_i id
    intro mac serial ht
    rw [← Bool.not_eq_true, Registry.hasNetwork_eq_true_iff]
    intro hother
    obtain ⟨j, mac', hj⟩ := hother
    have hins : d.inserts (.networkInsert id) = some (id, .network mac serial) := by
      simp only [inserts, ht]
    have hi := (hv.get_step hstep id (.network mac serial)).mpr (.inl hins)
    have hj' := (hv.get_step hstep j (.network mac' serial)).mpr (.inr ⟨hj, rfl, rfl⟩)
    have hji : j ≠ id := by
      intro heq
      rw [heq, hv.get_inserts hins] at hj
      cases hj
    exact hji (h j id mac' mac serial hj' hi)
  · trivial

/-- Over every interleaving of the tasks, the map has at most one network device
for each serial number exactly as long as no task inserts beside an entry that
has come in since its check. -/
theorem atMostOneNetwork_iff_insertsFirst (as : List Action) :
    StepSystem.EveryState next AtMostOneNetwork start as ↔
      StepSystem.EveryStep next InsertsFirst start as := by
  have hexact (d : Daemon) (a : Action) (d' : Daemon) (h : d.Vacant ∧ d.AtMostOneNetwork)
      (hst : d.next a = some d') : (d.InsertsFirst a → d'.Vacant ∧ d'.AtMostOneNetwork) ∧
        (d'.AtMostOneNetwork → d.InsertsFirst a) := by
    obtain ⟨ev, hstep⟩ := exists_step_of_next hst
    constructor
    · intro hf
      exact ⟨h.1.step hstep, h.1.atMostOne_step h.2 hf hstep⟩
    · intro hone
      exact h.1.insertsFirst_of_atMostOne hstep hone
  have hstart : start.AtMostOneNetwork := by
    intro i j mac mac' serial hi
    cases hi
  exact StepSystem.everyState_iff_everyStep hexact (fun _ h => h.2) ⟨vacant_start, hstart⟩ as

/-- A task that connects after a step connected before it, or the step takes up
its service. -/
theorem connecting_of_step (hstep : d.step a = some (d', ev)) {i : ℕ} {mac serial : String}
    (h : d'.adding.get i = some (.connecting mac serial)) :
    d.adding.get i = some (.connecting mac serial) ∧ a ≠ .networkInsert i ∨
      a = .serviceResolved i mac serial := by
  cases move_of_step hstep with
  | serviceResolved id m name hid =>
    rw [KeyTable.get_insert] at h
    split_ifs at h with hi
    · cases h
      exact .inr (by rw [hi])
    · exact .inl ⟨h, nofun⟩
  | networkInsert id m name ht =>
    rw [KeyTable.get_insert] at h
    split_ifs at h with hi
    · cases h
    · refine .inl ⟨h, ?_⟩
      intro ha
      cases ha
      exact hi rfl
  | networkFails id m name ht =>
    rw [KeyTable.get_remove] at h
    split_ifs at h
    exact .inl ⟨h, nofun⟩
  | addCovered id name ht hu =>
    rw [KeyTable.get_remove] at h
    split_ifs at h
    exact .inl ⟨h, nofun⟩
  | addShown id name ht hu =>
    rw [KeyTable.get_insert] at h
    split_ifs at h with hi
    · cases h
    · exact .inl ⟨h, nofun⟩
  | networkAttached id ht =>
    rw [KeyTable.get_remove] at h
    split_ifs at h
    exact .inl ⟨h, nofun⟩
  | takeNetwork _ id m name ha he =>
    refine .inl ⟨h, ?_⟩
    rcases ha with rfl | rfl <;> nofun
  | _ => exact .inl ⟨h, nofun⟩

/-- A service with an entry is not taken up. -/
theorem hasNetwork_of_resolved {id i : ℕ} {mac serial m : String}
    (hstep : d.step (.serviceResolved id mac serial) = some (d', ev))
    (hnew : d.adding.get i ≠ some (.connecting m serial))
    (h : d'.adding.get i = some (.connecting m serial)) : d.devices.hasNetwork serial = false := by
  rw [← Bool.not_eq_true]
  intro htrue
  have hnone : d.stepUsb .own d.usb (.serviceResolved id mac serial) = none := by
    cases d.usb <;> rfl
  have hsame : d.step (.serviceResolved id mac serial) = some (d, none) := by
    simp only [step, stepRead, hnone, stepNetwork, htrue, if_true, Option.orElse_none]
  cases hsame.symm.trans hstep
  exact hnew h

theorem Alone.step (hv : d.Vacant) (h : d.Alone) (hr : d.ResolvesAlone a)
    (hstep : d.step a = some (d', ev)) : d'.Alone := by
  -- a service that is taken up is the only one of its serial number
  have hfresh (i : ℕ) (mac serial : String) (ha : a = .serviceResolved i mac serial)
      (hi : d'.adding.get i = some (.connecting mac serial))
      (hold : d.adding.get i ≠ some (.connecting mac serial)) :
      d.devices.hasNetwork serial = false ∧
        ∀ j m, d.adding.get j ≠ some (.connecting m serial) := by
    subst ha
    have hnone := hasNetwork_of_resolved hstep hold hi
    exact ⟨hnone, hr hnone⟩
  constructor
  case unique =>
    -- whoever comes second meets the first one connecting
    have hcases (i j : ℕ) (mac mac' serial : String)
        (hi : d'.adding.get i = some (.connecting mac serial))
        (hj : d'.adding.get j = some (.connecting mac' serial))
        (hold : d.adding.get j = some (.connecting mac' serial)) : i = j := by
      by_cases hiold : d.adding.get i = some (.connecting mac serial)
      · exact h.unique i j mac mac' serial hiold hold
      · have ha := (connecting_of_step hstep hi).resolve_left fun hc => hiold hc.1
        exact absurd hold ((hfresh i mac serial ha hi hiold).2 j mac')
    intro i j mac mac' serial hi hj
    cases connecting_of_step hstep hj with
    | inl hold => exact hcases i j mac mac' serial hi hj hold.1
    | inr ha =>
      cases connecting_of_step hstep hi with
      | inl hold => exact (hcases j i mac' mac serial hj hi hold.1).symm
      | inr hb =>
        cases ha.symm.trans hb
        rfl
  case first =>
    intro i mac serial hi
    rw [← Bool.not_eq_true, Registry.hasNetwork_eq_true_iff]
    intro hnet
    obtain ⟨k, m, hk⟩ := hnet
    by_cases hold : d.adding.get i = some (.connecting mac serial)
    · cases (hv.get_step hstep k (.network m serial)).mp hk with
      | inl hins =>
        -- the task that inserts is the one that connects
        obtain ⟨ha, ht⟩ := network_of_inserts hins
        have hik := h.unique i k mac m serial hold ht
        cases connecting_of_step hstep hi with
        | inl hne => exact hne.2 (hik ▸ ha)
        | inr hb => cases ha.symm.trans hb
      | inr hkeep =>
        have htrue := Registry.hasNetwork_eq_true_iff.mpr ⟨k, m, hkeep.1⟩
        rw [h.first i mac serial hold] at htrue
        cases htrue
    · have ha := (connecting_of_step hstep hi).resolve_left fun hc => hold hc.1
      cases (hv.get_step hstep k (.network m serial)).mp hk with
      | inl hins => cases ha.symm.trans (network_of_inserts hins).1
      | inr hkeep =>
        have htrue := Registry.hasNetwork_eq_true_iff.mpr ⟨k, m, hkeep.1⟩
        rw [(hfresh i mac serial ha hi hold).1] at htrue
        cases htrue

/-- It is enough that no service is taken up while a task connects to a device
with its serial number. -/
theorem insertsFirst_of_resolvesAlone {as : List Action}
    (h : StepSystem.EveryStep next ResolvesAlone start as) :
    StepSystem.EveryStep next InsertsFirst start as := by
  have hstep (d : Daemon) (a : Action) (d' : Daemon) (hd : d.Vacant ∧ d.Alone)
      (hr : d.ResolvesAlone a) (hst : d.next a = some d') :
      d.InsertsFirst a ∧ d'.Vacant ∧ d'.Alone := by
    obtain ⟨ev, hst⟩ := exists_step_of_next hst
    refine ⟨?_, hd.1.step hst, hd.2.step hd.1 hr hst⟩
    cases a with
    | networkInsert id =>
      intro mac serial ht
      exact hd.2.first id mac serial ht
    | _ => trivial
  have hstart : start.Alone := by
    constructor
    · intro i j mac mac' serial hi
      cases hi
    · intro i mac serial hi
      cases hi
  exact StepSystem.everyStep_of_everyStep hstep ⟨vacant_start, hstart⟩ h

/-- The service of one device is resolved twice while the first task connects. -/
theorem not_atMostOneNetwork_resolvedTwice : ¬ ∀ as : List Action,
    StepSystem.EveryState next AtMostOneNetwork start as := by
  intro h
  have hlast := (h [.serviceResolved 1 "m" "A", .serviceResolved 2 "m" "A", .networkInsert 1,
    .networkInsert 2]).last rfl
  have heq := hlast 1 2 "m" "m" "A" rfl rfl
  exact absurd heq (by decide)

end Daemon

end Rusbmux
