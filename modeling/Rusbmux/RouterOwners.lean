import Rusbmux.PortRouting

/-! What the owner of a queue and the reader loop do to the router of
src/device/packet_router.rs, step by step. -/
namespace Rusbmux

namespace RouterLock

open PortRouting (queued)

-- the shard that a port is hashed to
variable {shard : UInt16 → ℕ}

/-- Somebody may still send to the queue. -/
def hasSender (s : RouterLock) (q : ℕ) : Bool :=
  s.conns.any (fun _ j => j = q) || match s.reader with
    | .sending _ j _ => j = q
    | _ => false

def Running (s : RouterLock) (q : ℕ) : Prop :=
  ∃ c, s.owners.get q = some c ∧ c.phase = .running

/-- What the owner of a queue does to the router. -/
structure ByOwner (q : ℕ) (s t : RouterLock) : Prop where
  linked : t.Linked
  table : ∀ port j, t.conns.get port = some j → s.conns.get port = some j
  reader : t.reader = s.reader
  next : t.nextQueue = s.nextQueue
  other : ∀ j, j ≠ q → t.owners.get j = s.owners.get j

/-- Nobody sends to the queue, now or later. -/
structure Unrouted (s : RouterLock) (q : ℕ) : Prop where
  table : ∀ port, s.conns.get port ≠ some q
  reader : ∀ port packet, s.reader ≠ .sending port q packet
  old : q < s.nextQueue

variable {r r' : RouterLock} {q j : ℕ} {c : QueueOwner}

theorem ByOwner.refl (h : r.Linked) : ByOwner q r r :=
  ⟨h, fun _ _ hj => hj, rfl, rfl, fun _ _ => rfl⟩

theorem ByOwner.trans {r'' : RouterLock} (h : ByOwner q r r') (h' : ByOwner q r' r'') :
    ByOwner q r r'' :=
  ⟨h'.linked, fun port j hj => h.table port j (h'.table port j hj), h'.reader.trans h.reader,
    h'.next.trans h.next, fun j hj => (h'.other j hj).trans (h.other j hj)⟩

theorem ByOwner.setOwner (h : r.Linked) (hc : r.owners.get q = some c) (c' : QueueOwner)
    (hport : c'.port = c.port) : ByOwner q r (r.setOwner q c') :=
  ⟨h.setOwner c' hc hport, fun _ _ hj => hj, rfl, rfl,
    fun _ hj => get_setOwner_of_ne r c' hj⟩

theorem byOwner_recv (h : r.Linked) (hst : r.step shard (.recv q) = some r') :
    ByOwner q r r' ∧ Running r' q := by
  simp only [step] at hst
  split at hst
  next port first rest hc =>
    cases hst
    exact ⟨.setOwner h hc _ rfl, _, get_setOwner_self _ _ _, rfl⟩
  next => cases hst

theorem byOwner_callUnregister (h : r.Linked) (hst : r.step shard (.callUnregister q) = some r') :
    ByOwner q r r' := by
  simp only [step] at hst
  split at hst
  next hc =>
    cases hst
    exact .setOwner h hc _ rfl
  next => cases hst

theorem byOwner_freeReceiver (h : r.Linked) (hst : r.step shard (.freeReceiver q) = some r') :
    ByOwner q r r' := by
  simp only [step] at hst
  split at hst
  next hc =>
    cases hst
    exact .setOwner h hc _ rfl
  next hc =>
    cases hst
    exact .setOwner h hc _ rfl
  next => cases hst

theorem byOwner_unregister (h : r.Linked) (hst : r.step shard (.unregister q) = some r') :
    ByOwner q r r' := by
  have hlinked := linked_step shard h hst
  simp only [step] at hst
  split at hst
  next port packets hc =>
    split_ifs at hst
    cases hst
    have hset := ByOwner.setOwner h hc ⟨port, packets, .closed⟩ rfl
    exact ⟨hlinked, unregister_less r.conns port, rfl, rfl, hset.other⟩
  next => cases hst

theorem ByOwner.queued (h : ByOwner q r r') (hj : j ≠ q) : queued r' j = queued r j := by
  unfold PortRouting.queued
  rw [h.other j hj]

theorem ByOwner.running (h : ByOwner q r r') (hj : j ≠ q) (hr : Running r j) : Running r' j := by
  unfold Running
  rw [h.other j hj]
  exact hr

theorem ByOwner.unrouted (h : ByOwner q r r') (hj : Unrouted r j) : Unrouted r' j := by
  refine ⟨fun port hport => hj.table port (h.table port j hport), fun port packet => ?_, ?_⟩
  · rw [h.reader]
    exact hj.reader port packet
  · rw [h.next]
    exact hj.old

/-- What is received is the first packet of the queue. -/
theorem queued_recv (hst : r.step shard (.recv q) = some r') :
    ∃ packet, queued r q = packet :: queued r' q := by
  simp only [step] at hst
  split at hst
  next port first rest hc =>
    cases hst
    refine ⟨first, ?_⟩
    rw [PortRouting.queued_setOwner_self, PortRouting.queued_of_get hc]
  next => cases hst

theorem recv_enabled (shard : UInt16 → ℕ) (hr : Running r q) {packet : UsbDevicePacket}
    {rest : List UsbDevicePacket} (hq : queued r q = packet :: rest) :
    ∃ r', r.step shard (.recv q) = some r' ∧ queued r' q = rest := by
  obtain ⟨⟨port, packets, phase⟩, hc, rfl⟩ := hr
  rw [PortRouting.queued_of_get hc] at hq
  cases hq
  refine ⟨r.setOwner q ⟨port, rest, .running⟩, ?_, PortRouting.queued_setOwner_self _ _ _⟩
  simp only [step, hc]

/-- A send goes to another queue. -/
theorem Unrouted.send {port : UInt16} {packet : UsbDevicePacket} (h : Unrouted r q)
    (hj : q ≠ j) : Unrouted (r.send port j c packet) q ∧
      queued (r.send port j c packet) q = queued r q := by
  unfold RouterLock.send
  by_cases hgone : c.phase = .gone
  · rw [if_pos hgone]
    refine ⟨⟨h.table, fun p pk hp => ?_, h.old⟩, rfl⟩
    cases hp
  · rw [if_neg hgone]
    by_cases hfull : c.Full
    · rw [if_pos hfull]
      refine ⟨⟨h.table, fun p pk hp => ?_, h.old⟩, rfl⟩
      cases hp
      exact hj rfl
    · rw [if_neg hfull]
      have hqueue :=
        PortRouting.queued_setOwner_of_ne r { c with packets := c.packets ++ [packet] } hj
      refine ⟨⟨h.table, fun p pk hp => ?_, h.old⟩, hqueue⟩
      cases hp

theorem running_send {port : UInt16} {packet : UsbDevicePacket} (hc : r.owners.get j = some c)
    (h : Running r q) : Running (r.send port j c packet) q := by
  unfold RouterLock.send
  by_cases hgone : c.phase = .gone
  · rwa [if_pos hgone]
  · rw [if_neg hgone]
    by_cases hfull : c.Full
    · rwa [if_pos hfull]
    · rw [if_neg hfull]
      by_cases hq : q = j
      · subst hq
        obtain ⟨d, hd, hrun⟩ := h
        rw [hc] at hd
        cases hd
        exact ⟨_, get_setOwner_self r q _, hrun⟩
      · obtain ⟨d, hd, hrun⟩ := h
        exact ⟨d, (get_setOwner_of_ne r _ hq).trans hd, hrun⟩

theorem next_send (r : RouterLock) (port : UInt16) (packet : UsbDevicePacket) :
    (r.send port j c packet).nextQueue = r.nextQueue := by
  unfold RouterLock.send
  split
  · rfl
  · split <;> rfl

/-- What the reader loop does to the router. -/
structure ByReader (s t : RouterLock) : Prop where
  linked : t.Linked
  next : t.nextQueue = s.nextQueue
  running : ∀ q, Running s q → Running t q
  unrouted : ∀ q, Unrouted s q → Unrouted t q ∧ queued t q = queued s q

theorem ByReader.refl (h : r.Linked) : ByReader r r :=
  ⟨h, rfl, fun _ hq => hq, fun _ hq => ⟨hq, rfl⟩⟩

theorem ByReader.send {port : UInt16} {packet : UsbDevicePacket} (h : r.Linked)
    (hc : r.owners.get j = some c) (hport : c.port = port)
    (hnot : ∀ q, Unrouted r q → q ≠ j) : ByReader r (r.send port j c packet) :=
  ⟨h.send hc hport packet, next_send r port packet, fun _ hq => running_send hc hq,
    fun q hq => hq.send (hnot q hq)⟩

theorem byReader_packetArrives {packet : UsbDevicePacket} (h : r.Linked)
    (hst : r.step shard (.packetArrives packet) = some r') : ByReader r r' := by
  simp only [step] at hst
  split at hst
  · cases hst
    split_ifs
    · exact .refl h
    · unfold RouterLock.route
      cases hj : r.conns.get (routePort packet) with
      | none => exact .refl h
      | some j =>
        obtain ⟨c, hc, hport⟩ := h.table _ j hj
        simp only [hc]
        refine .send h hc hport fun q hq => ?_
        rintro rfl
        exact hq.table _ hj
  · cases hst

theorem byReader_pollSend (h : r.Linked) (hst : r.step shard .pollSend = some r') :
    ByReader r r' := by
  simp only [step] at hst
  split at hst
  next port j packet hreader =>
    obtain ⟨c, hc, hport⟩ := h.reader port j packet hreader
    rw [hc] at hst
    cases hst
    refine .send h hc hport fun q hq => ?_
    rintro rfl
    exact hq.reader port packet hreader
  next => cases hst

/-- An RST leaves the router as it is. -/
theorem step_rst {packet : UsbDevicePacket} (hrst : isRst packet = true)
    (hst : r.step shard (.packetArrives packet) = some r') : r' = r ∧ r.reader = .reading := by
  simp only [step] at hst
  split at hst
  next hreader =>
    cases hst
    exact ⟨if_pos hrst, hreader⟩
  next => cases hst

/-- What a new queue leaves of the router. -/
structure Registers (s t : RouterLock) : Prop where
  linked : t.Linked
  next : t.nextQueue = s.nextQueue+1
  running : Running t s.nextQueue
  other : ∀ q, q < s.nextQueue → t.owners.get q = s.owners.get q
  unrouted : ∀ q, Unrouted s q → Unrouted t q

theorem registers_of_step {port : UInt16} (h : r.Linked)
    (hst : r.step shard (.register port) = some r') : Registers r r' := by
  have hlinked := linked_step shard h hst
  simp only [step, Option.ite_none_left_eq_some, Option.some.injEq] at hst
  obtain ⟨-, rfl⟩ := hst
  refine ⟨hlinked, rfl, ⟨_, KeyTable.get_insert_self _ _ _, rfl⟩,
    fun q hq => KeyTable.get_insert_of_ne _ _ (Nat.ne_of_lt hq), fun q hq => ?_⟩
  refine ⟨fun p hp => ?_, hq.reader, Nat.lt_succ_of_lt hq.old⟩
  rw [PacketRouter.register, KeyTable.get_insert] at hp
  split_ifs at hp
  · cases hp
    exact Nat.lt_irrefl _ hq.old
  · exact hq.table p hp

/-- The table loses entries. -/
theorem Unrouted.conns {conns : PacketRouter} (h : Unrouted r q)
    (hless : ∀ port j, conns.get port = some j → r.conns.get port = some j) :
    Unrouted { r with conns := conns } q :=
  ⟨fun port hport => h.table port (hless port q hport), h.reader, h.old⟩

theorem not_hasSender (h : Unrouted r q) : hasSender r q = false := by
  unfold RouterLock.hasSender
  rw [Bool.or_eq_false_iff]
  constructor
  · rw [KeyTable.any_eq_false_iff]
    intro port j hj
    refine decide_eq_false ?_
    rintro rfl
    exact h.table port hj
  · split
    next port j packet hreader =>
      refine decide_eq_false ?_
      rintro rfl
      exact h.reader port packet hreader
    next => rfl

end RouterLock

end Rusbmux
