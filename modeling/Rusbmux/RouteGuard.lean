import Rusbmux.RouterLock
import Rusbmux.ShardLocks

/-! The guard of `PacketRouter::route`, lock by lock. -/
namespace Rusbmux

inductive RouterTask where
  /-- The reader loop. -/
  | reader
  | other (i : ℕ)
  deriving DecidableEq, Repr

structure RouteGuard where
  conns : PacketRouter
  owners : KeyTable ℕ QueueOwner
  locks : ShardLocks RouterTask
  reader : ReaderPhase

namespace RouteGuard

-- the shard that a port is hashed to
variable (shard : UInt16 → ℕ)

inductive Action where
  /-- The reader loop calls `route`, which looks up the port. -/
  | route (packet : UsbDevicePacket)
  /-- The send that `route` waits for is polled. -/
  | pollSend
  /-- The `unregister` that `route` calls gets the write side. -/
  | remove
  /-- Any other task takes and gives back guards. -/
  | lockRead (i k : ℕ)
  | unlockRead (i k : ℕ)
  | lockWrite (i k : ℕ)
  | unlockWrite (i k : ℕ)
  /-- It changes the map where it has the write side; `q` names a new queue. -/
  | register (i : ℕ) (port : UInt16) (q : ℕ)
  | unregister (i : ℕ) (port : UInt16)
  | recv (q : ℕ)
  | freeReceiver (q : ℕ)

def setOwner (s : RouteGuard) (q : ℕ) (c : QueueOwner) : RouteGuard :=
  { s with owners := s.owners.insert q c }

def step (s : RouteGuard) : Action → Option RouteGuard
  | .route packet => match s.reader with
    | .reading =>
      let port := RouterLock.routePort packet
      (s.locks.lockRead .reader (shard port)).map fun locks =>
        match s.conns.get port with
        -- nothing was found, and the lock is free again
        | none => s
        | some q => { s with locks := locks, reader := .sending port q packet }
    | _ => none
  | .pollSend => match s.reader with
    | .sending port q packet => (s.owners.get q).map fun c =>
      -- the guard is dropped after the body of the `if let` only
      if c.phase = .gone then { s with reader := .unregistering port }
      else if c.Full then s
      else { s.setOwner q { c with packets := c.packets ++ [packet] } with
        locks := s.locks.unlockRead .reader (shard port)
        reader := .reading }
    | _ => none
  | .remove => match s.reader with
    | .unregistering port => (s.locks.lockWrite .reader (shard port)).map fun locks => { s with
        conns := s.conns.unregister port
        locks := (locks.unlockWrite .reader (shard port)).unlockRead .reader (shard port)
        reader := .reading }
    | _ => none
  | .lockRead i k => (s.locks.lockRead (.other i) k).map fun locks => { s with locks := locks }
  | .unlockRead i k => some { s with locks := s.locks.unlockRead (.other i) k }
  | .lockWrite i k => (s.locks.lockWrite (.other i) k).map fun locks => { s with locks := locks }
  | .unlockWrite i k => some { s with locks := s.locks.unlockWrite (.other i) k }
  | .register i port q =>
    if s.locks.Writes (.other i) (shard port) ∧ s.owners.get q = none then some { s with
      conns := s.conns.register port q
      owners := s.owners.insert q ⟨port, [], .running⟩ }
    else none
  | .unregister i port =>
    if s.locks.Writes (.other i) (shard port) then
      some { s with conns := s.conns.unregister port }
    else none
  | .recv q => match s.owners.get q with
    | some ⟨port, _ :: packets, .running⟩ => some (s.setOwner q ⟨port, packets, .running⟩)
    | _ => none
  | .freeReceiver q => (s.owners.get q).map fun c => s.setOwner q { c with phase := .gone }

/-- The entry of a port names a queue that has lost its receiver. -/
def Dead (s : RouteGuard) (port : UInt16) : Prop :=
  ∃ q c, s.conns.get port = some q ∧ s.owners.get q = some c ∧ c.phase = .gone

/-- In the body of the `if let`, with the guard of a dead entry. -/
structure Stuck (port : UInt16) (q : ℕ) (s : RouteGuard) : Prop where
  reader : (∃ packet, s.reader = .sending port q packet) ∨ s.reader = .unregistering port
  guard : s.locks.Reads .reader (shard port)
  entry : s.conns.get port = some q
  gone : ∃ c, s.owners.get q = some c ∧ c.phase = .gone

variable {shard : UInt16 → ℕ} {port : UInt16} {q : ℕ} {s t : RouteGuard}

/-- An owner that is gone stays so, whatever else changes. -/
theorem gone_setOwner {j : ℕ} {c d : QueueOwner} (hj : s.owners.get j = some c)
    (hd : c.phase = .gone → d.phase = .gone)
    (h : ∃ c, s.owners.get q = some c ∧ c.phase = .gone) :
    ∃ c, (s.setOwner j d).owners.get q = some c ∧ c.phase = .gone := by
  obtain ⟨e, he, hg⟩ := h
  by_cases hq : q = j
  · subst hq
    rw [hj] at he
    cases he
    exact ⟨d, KeyTable.get_insert_self _ _ _, hd hg⟩
  · exact ⟨e, (KeyTable.get_insert_of_ne _ _ hq).trans he, hg⟩

/-- The guard keeps every other task out, and `route` from its own `remove`. -/
theorem Stuck.kept (h : Stuck shard port q s) {a : Action} (ht : s.step shard a = some t) :
    Stuck shard port q t := by
  cases a with
  | route packet =>
    simp only [RouteGuard.step] at ht
    obtain ⟨packet', hr⟩ | hr := h.reader
    · simp only [hr] at ht
      cases ht
    · simp only [hr] at ht
      cases ht
  | pollSend =>
    obtain ⟨packet, hr⟩ | hr := h.reader
    · obtain ⟨c, hc, hg⟩ := h.gone
      simp only [RouteGuard.step, hr, hc, Option.map_some, if_pos hg] at ht
      cases ht
      exact ⟨Or.inr rfl, h.guard, h.entry, h.gone⟩
    · simp only [RouteGuard.step, hr] at ht
      cases ht
  | remove =>
    obtain ⟨packet, hr⟩ | hr := h.reader
    · simp only [RouteGuard.step, hr] at ht
      cases ht
    · -- its own guard is among those it waits for
      simp only [RouteGuard.step, hr, h.guard.lockWrite_eq_none, Option.map_none] at ht
      cases ht
  | lockRead i k =>
    obtain ⟨locks, hl, rfl⟩ := Option.map_eq_some_iff.mp ht
    exact ⟨h.reader, h.guard.lockRead hl, h.entry, h.gone⟩
  | unlockRead i k =>
    cases ht
    have hi : RouterTask.reader ≠ .other i := fun he => by cases he
    exact ⟨h.reader, h.guard.unlockRead hi, h.entry, h.gone⟩
  | lockWrite i k =>
    obtain ⟨locks, hl, rfl⟩ := Option.map_eq_some_iff.mp ht
    exact ⟨h.reader, h.guard.lockWrite hl, h.entry, h.gone⟩
  | unlockWrite i k =>
    cases ht
    exact ⟨h.reader, h.guard.unlockWrite, h.entry, h.gone⟩
  | register i p j =>
    simp only [RouteGuard.step] at ht
    split_ifs at ht with hw
    cases ht
    -- the port's shard has a reader, so no task writes there
    have hp : port ≠ p := by
      rintro rfl
      exact h.guard.not_writes _ hw.1
    refine ⟨h.reader, h.guard, (KeyTable.get_insert_of_ne _ _ hp).trans h.entry, ?_⟩
    obtain ⟨c, hc, hg⟩ := h.gone
    have hq : q ≠ j := by
      rintro rfl
      rw [hc] at hw
      cases hw.2
    exact ⟨c, (KeyTable.get_insert_of_ne _ _ hq).trans hc, hg⟩
  | unregister i p =>
    simp only [RouteGuard.step] at ht
    split_ifs at ht with hw
    cases ht
    have hp : port ≠ p := by
      rintro rfl
      exact h.guard.not_writes _ hw
    refine ⟨h.reader, h.guard, ?_, h.gone⟩
    rw [PacketRouter.unregister, KeyTable.get_remove, if_neg hp]
    exact h.entry
  | recv j =>
    simp only [RouteGuard.step] at ht
    split at ht
    · rename_i p packet packets hj
      cases ht
      exact ⟨h.reader, h.guard, h.entry, gone_setOwner hj (fun hg => by cases hg) h.gone⟩
    · cases ht
  | freeReceiver j =>
    obtain ⟨c, hj, rfl⟩ := Option.map_eq_some_iff.mp ht
    exact ⟨h.reader, h.guard, h.entry, gone_setOwner hj (fun _ => rfl) h.gone⟩

theorem Stuck.after (h : Stuck shard port q s) {as : List Action}
    (ht : StepSystem.after (step shard) s as = some t) : Stuck shard port q t :=
  StepSystem.after_induction (fun _ _ _ hs hst => hs.kept hst) h ht

/-- `route` finds the dead entry and takes the guard. -/
theorem stuck_route {packet : UsbDevicePacket} {c : QueueOwner}
    (hq : s.conns.get (RouterLock.routePort packet) = some q) (hc : s.owners.get q = some c)
    (hg : c.phase = .gone) (ht : s.step shard (.route packet) = some t) :
    Stuck shard (RouterLock.routePort packet) q t ∧
      t.reader = .sending (RouterLock.routePort packet) q packet := by
  simp only [step] at ht
  split at ht
  · obtain ⟨locks, hl, ht⟩ := Option.map_eq_some_iff.mp ht
    rw [hq] at ht
    cases ht
    have hguard := ShardLocks.reads_of_lockRead hl
    exact ⟨⟨Or.inl ⟨packet, rfl⟩, hguard, hq, c, hc, hg⟩, rfl⟩
  · cases ht

/-- The port's shard stays as it is for ever: nothing is removed, and no task
gets its write side. -/
structure Frozen (shard : UInt16 → ℕ) (port : UInt16) (s : RouteGuard) : Prop where
  reader : s.reader ≠ .reading
  guard : s.locks.Reads .reader (shard port)
  write : ∀ task, s.locks.lockWrite task (shard port) = none
  entry : (s.conns.get port).isSome

theorem Stuck.frozen (h : Stuck shard port q s) : Frozen shard port s where
  reader := by
    obtain ⟨packet, hr⟩ | hr := h.reader
    · rw [hr]
      exact fun he => by cases he
    · rw [hr]
      exact fun he => by cases he
  guard := h.guard
  write := h.guard.lockWrite_eq_none
  entry := by rw [h.entry, Option.isSome_some]

/-- The send fails at once, and `unregister` is called under the guard. -/
theorem Stuck.asks {packet : UsbDevicePacket} (h : Stuck shard port q s)
    (hr : s.reader = .sending port q packet) :
    s.step shard .pollSend = some { s with reader := .unregistering port } := by
  obtain ⟨c, hc, hg⟩ := h.gone
  simp only [step, hr, hc, Option.map_some, if_pos hg]

/-- `route` on a dead entry never returns, from any state and whatever the other
tasks do: it asks for the write side under its own guard. -/
theorem route_never_returns (packet : UsbDevicePacket)
    (hd : s.Dead (RouterLock.routePort packet)) (ht : s.step shard (.route packet) = some t) :
    (∃ u, t.step shard .pollSend = some u ∧
      u.reader = .unregistering (RouterLock.routePort packet) ∧
      u.locks.Reads .reader (shard (RouterLock.routePort packet))) ∧
    ∀ as u, StepSystem.after (step shard) t as = some u →
      Frozen shard (RouterLock.routePort packet) u := by
  obtain ⟨q, c, hq, hc, hg⟩ := hd
  obtain ⟨hs, hr⟩ := stuck_route hq hc hg ht
  exact ⟨⟨_, hs.asks hr, rfl, hs.guard⟩, fun as u hu => (hs.after hu).frozen⟩

/-- One connection whose receiver was dropped without `unregister`. -/
def deadEntry : RouteGuard where
  conns := PacketRouter.register .empty 1 0
  owners := KeyTable.empty.insert 0 ⟨1, [], .gone⟩
  locks := .free
  reader := .reading

theorem dead_deadEntry : deadEntry.Dead 1 := ⟨0, ⟨1, [], .gone⟩, rfl, rfl, rfl⟩

theorem deadEntry_never_returns :
    ∃ t, deadEntry.step (fun _ => 0) (.route RouterLock.packetFor1) = some t ∧
      (∃ u, t.step (fun _ => 0) .pollSend = some u ∧ u.reader = .unregistering 1 ∧
        u.locks.Reads .reader 0) ∧
      ∀ as u, StepSystem.after (step fun _ => 0) t as = some u → Frozen (fun _ => 0) 1 u :=
  ⟨_, rfl, route_never_returns RouterLock.packetFor1 dead_deadEntry rfl⟩

/-- The entry is not removed, and the reader loop does not come back for the
next packet. -/
theorem route_does_not_complete :
    deadEntry.Dead (RouterLock.routePort RouterLock.packetFor1) ∧
    ¬ ∃ as t, StepSystem.after (step fun _ => 0) deadEntry
        (.route RouterLock.packetFor1 :: as) = some t ∧
      t.reader = .reading ∧ t.conns.get 1 = none := by
  refine ⟨dead_deadEntry, ?_⟩
  rintro ⟨as, t, ht, hr, -⟩
  obtain ⟨u, hu, ht⟩ := Option.bind_eq_some_iff.mp ht
  obtain ⟨hs, -⟩ := stuck_route (q := 0) rfl rfl rfl hu
  exact (hs.after ht).frozen.reader hr

end RouteGuard
end Rusbmux
