import Rusbmux.Relay
import Rusbmux.SourcePort

/-! The lock of src/device/packet_router.rs. Each shard of the map has a
reader/writer lock that is not reentrant: `route` keeps the read side of its
port's shard for as long as it holds the sender, and `register` and
`unregister` need the write side. -/
namespace Rusbmux

inductive OwnerPhase where
  /-- The task of the connection receives from it. -/
  | running
  /-- The task is inside `unregister`. -/
  | unregistering
  /-- `close` has returned; the receiver is still there. -/
  | closed
  /-- The receiver is dropped. -/
  | gone
  deriving DecidableEq, Repr

/-- A connection's queue and the task that owns the receiver. -/
structure QueueOwner where
  port : UInt16
  packets : List UsbDevicePacket
  phase : OwnerPhase

namespace QueueOwner

def Full (c : QueueOwner) : Prop := QUEUE_SIZE ≤ c.packets.length

instance (c : QueueOwner) : Decidable c.Full := inferInstanceAs (Decidable (_ ≤ _))

end QueueOwner

inductive ReaderPhase where
  /-- Waiting for a packet of the device. -/
  | reading
  /-- In `conn.send`, with the guard of the port's entry. -/
  | sending (port : UInt16) (queue : ℕ) (packet : UsbDevicePacket)
  /-- In the `unregister` that `route` calls under its own guard. -/
  | unregistering (port : UInt16)

structure RouterLock where
  conns : PacketRouter
  owners : KeyTable ℕ QueueOwner
  reader : ReaderPhase
  nextQueue : ℕ

namespace RouterLock

-- the shard that a port is hashed to
variable (shard : UInt16 → ℕ)

/-- The read side of the shard is held. -/
def guarded (s : RouterLock) (k : ℕ) : Bool :=
  match s.reader with
  | .reading => false
  | .sending port _ _ | .unregistering port => shard port = k

/-- The port that `route` looks up. -/
def routePort (packet : UsbDevicePacket) : UInt16 :=
  (packet.tcpHdr.map TcpHeader.destinationPort).getD 0

def isRst (packet : UsbDevicePacket) : Bool := (packet.tcpHdr.map TcpHeader.rst).getD false

def setOwner (s : RouterLock) (q : ℕ) (c : QueueOwner) : RouterLock :=
  { s with owners := s.owners.insert q c }

/-- The send of `route`, on an entry that it has found. -/
def send (s : RouterLock) (port : UInt16) (q : ℕ) (c : QueueOwner)
    (packet : UsbDevicePacket) : RouterLock :=
  -- `route` calls `unregister` under the guard it still has, and never returns
  if c.phase = .gone then { s with reader := .unregistering port }
  else if c.Full then { s with reader := .sending port q packet }
  else { s.setOwner q { c with packets := c.packets ++ [packet] } with reader := .reading }

/-- `route`, with no guard held before. -/
def route (s : RouterLock) (packet : UsbDevicePacket) : RouterLock :=
  match s.conns.get (routePort packet) with
  | none => s
  | some q => match s.owners.get q with
    | none => s
    | some c => s.send (routePort packet) q c packet

inductive Action where
  /-- The reader loop gets a packet; an RST is dropped. -/
  | packetArrives (packet : UsbDevicePacket)
  /-- The send that `route` is suspended in is polled again. -/
  | pollSend
  | register (port : UInt16)
  | recv (q : ℕ)
  /-- The owner calls `unregister`, in `close` or in `drop`. -/
  | callUnregister (q : ℕ)
  /-- The owner gets the write side of its port's shard. -/
  | unregister (q : ℕ)
  | freeReceiver (q : ℕ)

def step (s : RouterLock) : Action → Option RouterLock
  | .packetArrives packet => match s.reader with
    | .reading => some (if isRst packet then s else s.route packet)
    | _ => none
  | .pollSend => match s.reader with
    | .sending port q packet => (s.owners.get q).map fun c => s.send port q c packet
    | _ => none
  | .register port =>
    if s.guarded shard (shard port) then none
    else some { s with
      conns := s.conns.register port s.nextQueue
      owners := s.owners.insert s.nextQueue ⟨port, [], .running⟩
      nextQueue := s.nextQueue+1 }
  | .recv q => match s.owners.get q with
    | some ⟨port, _ :: packets, .running⟩ => some (s.setOwner q ⟨port, packets, .running⟩)
    | _ => none
  | .callUnregister q => match s.owners.get q with
    | some ⟨port, packets, .running⟩ => some (s.setOwner q ⟨port, packets, .unregistering⟩)
    | _ => none
  -- `conns.remove` blocks the thread until no guard of the shard is left
  | .unregister q => match s.owners.get q with
    | some ⟨port, packets, .unregistering⟩ =>
      if s.guarded shard (shard port) then none
      else some { s.setOwner q ⟨port, packets, .closed⟩ with conns := s.conns.unregister port }
    | _ => none
  -- also without `unregister`: when the RST could not be sent, `close` returns before it
  | .freeReceiver q => match s.owners.get q with
    | some ⟨port, packets, .running⟩ | some ⟨port, packets, .closed⟩ =>
      some (s.setOwner q ⟨port, packets, .gone⟩)
    | _ => none

def new : RouterLock where
  conns := .empty
  owners := .empty
  reader := .reading
  nextQueue := 0

/-- The reader loop waits for room in a queue whose owner waits for the lock
that the reader loop holds. -/
def Deadlocked (s : RouterLock) : Prop :=
  ∃ port q packet c, s.reader = .sending port q packet ∧ s.owners.get q = some c ∧ c.Full ∧
    c.phase = .unregistering ∧ s.guarded shard (shard c.port) = true

/-- The table and the reader loop know a queue by the port of its owner. -/
structure Linked (s : RouterLock) : Prop where
  table : ∀ port q, s.conns.get port = some q → ∃ c, s.owners.get q = some c ∧ c.port = port
  reader : ∀ port q packet, s.reader = .sending port q packet →
    ∃ c, s.owners.get q = some c ∧ c.port = port
  fresh : ∀ q c, s.owners.get q = some c → q < s.nextQueue

theorem linked_new : new.Linked := by
  refine ⟨?_, ?_, ?_⟩
  · intro port q h
    cases h
  · intro port q packet h
    cases h
  · intro q c h
    cases h

variable {s t : RouterLock}

theorem get_setOwner_self (s : RouterLock) (q : ℕ) (c : QueueOwner) :
    (s.setOwner q c).owners.get q = some c := KeyTable.get_insert_self _ _ _

theorem get_setOwner_of_ne (s : RouterLock) {q j : ℕ} (c : QueueOwner) (h : j ≠ q) :
    (s.setOwner q c).owners.get j = s.owners.get j := KeyTable.get_insert_of_ne _ _ h

/-- A change of owners in which each keeps its port. -/
theorem Linked.congr (h : s.Linked)
    (hc : ∀ port q, t.conns.get port = some q → s.conns.get port = some q)
    (hr : ∀ port q packet, t.reader = .sending port q packet →
      s.reader = .sending port q packet ∨ s.conns.get port = some q)
    (ho : ∀ q c, s.owners.get q = some c → ∃ d, t.owners.get q = some d ∧ d.port = c.port)
    (hf : ∀ q c, t.owners.get q = some c → q < t.nextQueue) : t.Linked := by
  refine ⟨?_, ?_, hf⟩
  · intro port q hq
    obtain ⟨c, hc, hp⟩ := h.table port q (hc port q hq)
    obtain ⟨d, hd, hdp⟩ := ho q c hc
    exact ⟨d, hd, hdp.trans hp⟩
  · intro port q packet hq
    have hs : ∃ c, s.owners.get q = some c ∧ c.port = port := by
      rcases hr port q packet hq with hs | hs
      · exact h.reader port q packet hs
      · exact h.table port q hs
    obtain ⟨c, hc, hp⟩ := hs
    obtain ⟨d, hd, hdp⟩ := ho q c hc
    exact ⟨d, hd, hdp.trans hp⟩

theorem setOwner_ports {q : ℕ} {c c' : QueueOwner} (hq : s.owners.get q = some c)
    (hp : c'.port = c.port) (j : ℕ) (d : QueueOwner) (hj : s.owners.get j = some d) :
    ∃ e, (s.setOwner q c').owners.get j = some e ∧ e.port = d.port := by
  by_cases hjq : j = q
  · subst hjq
    rw [hq] at hj
    cases hj
    exact ⟨c', get_setOwner_self s j c', hp⟩
  · exact ⟨d, (get_setOwner_of_ne s c' hjq).trans hj, rfl⟩

theorem setOwner_fresh (h : s.Linked) {q : ℕ} {c : QueueOwner} (c' : QueueOwner)
    (hq : s.owners.get q = some c) (j : ℕ) (d : QueueOwner)
    (hj : (s.setOwner q c').owners.get j = some d) : j < s.nextQueue := by
  by_cases hjq : j = q
  · subst hjq
    exact h.fresh j c hq
  · rw [get_setOwner_of_ne s c' hjq] at hj
    exact h.fresh j d hj

theorem Linked.setOwner (h : s.Linked) {q : ℕ} {c : QueueOwner} (c' : QueueOwner)
    (hq : s.owners.get q = some c) (hp : c'.port = c.port) : (s.setOwner q c').Linked :=
  h.congr (fun _ _ hc => hc) (fun _ _ _ hr => .inl hr) (setOwner_ports hq hp)
    (setOwner_fresh h c' hq)

theorem Linked.send (h : s.Linked) {port : UInt16} {q : ℕ} {c : QueueOwner}
    (hc : s.owners.get q = some c) (hp : c.port = port) (packet : UsbDevicePacket) :
    (s.send port q c packet).Linked := by
  unfold RouterLock.send
  split
  · refine ⟨h.table, ?_, h.fresh⟩
    intro port q packet hr
    cases hr
  · split
    · refine ⟨h.table, ?_, h.fresh⟩
      rintro port q packet ⟨⟩
      exact ⟨c, hc, hp⟩
    · have hs := h.setOwner { c with packets := c.packets ++ [packet] } hc rfl
      refine ⟨hs.table, ?_, hs.fresh⟩
      intro port q packet hr
      cases hr

theorem unregister_less (conns : PacketRouter) (p port : UInt16) (j : ℕ)
    (hj : (conns.unregister p).get port = some j) : conns.get port = some j := by
  rw [PacketRouter.unregister, KeyTable.get_remove] at hj
  split_ifs at hj
  exact hj

/-- The table loses entries. -/
theorem Linked.conns {conns : PacketRouter} (h : s.Linked)
    (hless : ∀ port j, conns.get port = some j → s.conns.get port = some j) :
    Linked { s with conns := conns } :=
  ⟨fun port j hj => h.table port j (hless port j hj), h.reader, h.fresh⟩

/-- The table and the reader loop only name queues of their own port. -/
theorem linked_step {action : Action} (h : s.Linked) (hst : s.step shard action = some t) :
    t.Linked := by
  cases action with
  | packetArrives packet =>
    simp only [step] at hst
    split at hst <;> cases hst
    split
    · -- an RST is not routed
      exact h
    · unfold route
      split
      · -- no connection has the port
        exact h
      · rename_i q hq
        obtain ⟨c, hc, hp⟩ := h.table _ q hq
        simp only [hc]
        exact h.send hc hp packet
  | pollSend =>
    simp only [step] at hst
    split at hst
    · rename_i port q packet hr
      obtain ⟨c, hc, hp⟩ := h.reader port q packet hr
      rw [hc] at hst
      cases hst
      exact h.send hc hp packet
    · cases hst
  | register port =>
    simp only [step, Option.ite_none_left_eq_some, Option.some.injEq] at hst
    obtain ⟨-, rfl⟩ := hst
    -- the new queue has a number that no other has
    have hnew (q : ℕ) (c : QueueOwner) (hq : s.owners.get q = some c) :
        (s.owners.insert s.nextQueue ⟨port, [], .running⟩).get q = some c :=
      (KeyTable.get_insert_of_ne _ _ (Nat.ne_of_lt (h.fresh q c hq))).trans hq
    refine ⟨?_, ?_, ?_⟩
    · intro p q hq
      rw [PacketRouter.register, KeyTable.get_insert] at hq
      split_ifs at hq with hpp
      · cases hq
        exact ⟨⟨port, [], .running⟩, KeyTable.get_insert_self _ _ _, hpp.symm⟩
      · obtain ⟨c, hc, hcp⟩ := h.table p q hq
        exact ⟨c, hnew q c hc, hcp⟩
    · intro p q packet hq
      obtain ⟨c, hc, hcp⟩ := h.reader p q packet hq
      exact ⟨c, hnew q c hc, hcp⟩
    · intro q c hq
      rw [KeyTable.get_insert] at hq
      split_ifs at hq with hqn
      · rw [hqn]
        exact Nat.lt_succ_self _
      · exact Nat.lt_succ_of_lt (h.fresh q c hq)
  | recv q | callUnregister q =>
    simp only [step] at hst
    split at hst
    · rename_i hq
      cases hst
      exact h.setOwner _ hq rfl
    · cases hst
  | unregister q =>
    simp only [step] at hst
    split at hst
    · rename_i port packets hq
      split at hst <;> cases hst
      have hs := h.setOwner ⟨port, packets, .closed⟩ hq rfl
      exact hs.conns (unregister_less s.conns port)
    · cases hst
  | freeReceiver q =>
    simp only [step] at hst
    split at hst
    · rename_i hq
      cases hst
      exact h.setOwner _ hq rfl
    · rename_i hq
      cases hst
      exact h.setOwner _ hq rfl
    · cases hst

/-- Nobody calls `unregister` on the full queue that the reader loop is
suspended on, and no packet is routed to a full queue whose owner is inside
`unregister`. -/
def KeepsLock (s : RouterLock) : Action → Prop
  | .callUnregister q => ∀ port packet c, s.reader = .sending port q packet →
    s.owners.get q = some c → ¬ c.Full
  | .packetArrives packet => isRst packet = false → ∀ q c,
    s.conns.get (routePort packet) = some q → s.owners.get q = some c →
      c.phase = .unregistering → ¬ c.Full
  | _ => True

/-- A deadlock after a change of one owner was there before, unless the owner is
the one that the reader loop waits for. -/
theorem deadlocked_setOwner {q : ℕ} (c' : QueueOwner)
    (h : (s.setOwner q c').Deadlocked shard) : s.Deadlocked shard ∨
      c'.phase = .unregistering ∧ c'.Full ∧ ∃ port packet, s.reader = .sending port q packet := by
  obtain ⟨port, j, packet, d, hr, hj, hfull, hu, hg⟩ := h
  by_cases hjq : j = q
  · subst hjq
    rw [get_setOwner_self] at hj
    cases hj
    exact .inr ⟨hu, hfull, port, packet, hr⟩
  · rw [get_setOwner_of_ne s c' hjq] at hj
    exact .inl ⟨port, j, packet, d, hr, hj, hfull, hu, hg⟩

/-- A send that suspends waits for room, and a deadlock with the owner inside
`unregister`. -/
theorem deadlocked_send {port : UInt16} {q : ℕ} {c : QueueOwner} {packet : UsbDevicePacket}
    (hc : s.owners.get q = some c) (h : (s.send port q c packet).Deadlocked shard) :
    c.phase = .unregistering ∧ c.Full := by
  obtain ⟨p, j, pk, d, hr, hj, hfull, hu, hg⟩ := h
  unfold RouterLock.send at hr hj
  split at hr
  · cases hr
  · split at hr
    · cases hr
      rw [if_neg ‹_›, if_pos ‹_›] at hj
      cases hc.symm.trans hj
      exact ⟨hu, hfull⟩
    · cases hr

theorem deadlocked_of_send {port : UInt16} {q : ℕ} {c : QueueOwner} (packet : UsbDevicePacket)
    (hc : s.owners.get q = some c) (hp : c.port = port) (hu : c.phase = .unregistering)
    (hfull : c.Full) : (s.send port q c packet).Deadlocked shard := by
  have hgone : c.phase ≠ .gone := by
    rw [hu]
    decide
  unfold RouterLock.send
  rw [if_neg hgone, if_pos hfull]
  refine ⟨port, q, packet, c, rfl, hc, hfull, hu, ?_⟩
  simp only [guarded, hp, decide_true]

/-- A step that keeps to the rule leads to no deadlock. -/
theorem not_deadlocked_step {action : Action} (hl : s.Linked) (hn : ¬ s.Deadlocked shard)
    (hk : s.KeepsLock action) (hst : s.step shard action = some t) : ¬ t.Deadlocked shard := by
  intro hd
  cases action with
  | packetArrives packet =>
    simp only [step] at hst
    split at hst <;> cases hst
    split at hd
    · exact hn hd
    · rename_i hrst
      unfold route at hd
      split at hd
      · exact hn hd
      · rename_i q hq
        obtain ⟨c, hc, hp⟩ := hl.table _ q hq
        simp only [hc] at hd
        obtain ⟨hu, hfull⟩ := deadlocked_send shard hc hd
        -- a packet for a full queue whose owner is in `unregister`: what the rule excludes
        exact hk (Bool.eq_false_iff.mpr hrst) q c hq hc hu hfull
  | pollSend =>
    simp only [step] at hst
    split at hst
    · rename_i port q packet hr
      obtain ⟨c, hc, hp⟩ := hl.reader port q packet hr
      rw [hc] at hst
      cases hst
      obtain ⟨hu, hfull⟩ := deadlocked_send shard hc hd
      -- the loop was suspended on the same queue before
      refine hn ⟨port, q, packet, c, hr, hc, hfull, hu, ?_⟩
      simp only [guarded, hr, hp, decide_true]
    · cases hst
  | register port =>
    simp only [step, Option.ite_none_left_eq_some, Option.some.injEq] at hst
    obtain ⟨-, rfl⟩ := hst
    -- the new owner is not in `unregister`
    rcases deadlocked_setOwner (s := s) shard _ hd with hd | ⟨hu, -, -⟩
    · exact hn hd
    · cases hu
  | recv q =>
    simp only [step] at hst
    split at hst
    · cases hst
      rcases deadlocked_setOwner shard _ hd with hd | ⟨hu, -, -⟩
      · exact hn hd
      · cases hu
    · cases hst
  | callUnregister q =>
    simp only [step] at hst
    split at hst
    · rename_i hq
      cases hst
      rcases deadlocked_setOwner shard _ hd with hd | ⟨-, hfull, port, packet, hr⟩
      · exact hn hd
      · -- the loop waits for this very queue, which the rule excludes
        exact hk port packet _ hr hq hfull
    · cases hst
  | unregister q =>
    simp only [step] at hst
    split at hst
    · rename_i port packets hq
      split at hst <;> cases hst
      rcases deadlocked_setOwner (s := s) shard ⟨port, packets, .closed⟩ hd with
        hd | ⟨hu, -, -⟩
      · exact hn hd
      · cases hu
    · cases hst
  | freeReceiver q =>
    -- an owner that is gone waits for nothing
    have hgone (c : QueueOwner) (hd : (s.setOwner q { c with phase := .gone }).Deadlocked shard) :
        False := by
      rcases deadlocked_setOwner shard _ hd with hd | ⟨hu, -, -⟩
      · exact hn hd
      · cases hu
    simp only [step] at hst
    split at hst
    · cases hst
      exact hgone ⟨_, _, .running⟩ hd
    · cases hst
      exact hgone ⟨_, _, .closed⟩ hd
    · cases hst

/-- A call or a packet that breaks the rule leaves a deadlock. -/
theorem keepsLock_of_not_deadlocked {action : Action} (hl : s.Linked)
    (hst : s.step shard action = some t) (hn : ¬ t.Deadlocked shard) : s.KeepsLock action := by
  cases action with
  | packetArrives packet =>
    intro hrst q c hq hc hu hfull
    obtain ⟨d, hd, hp⟩ := hl.table _ q hq
    cases hc.symm.trans hd
    simp only [step] at hst
    split at hst <;> cases hst
    simp only [hrst, Bool.false_eq_true, if_false, route, hq, hc] at hn
    exact hn (deadlocked_of_send shard packet hc hp hu hfull)
  | callUnregister q =>
    intro port packet c hr hc hfull
    obtain ⟨d, hd, hp⟩ := hl.reader port q packet hr
    cases hc.symm.trans hd
    simp only [step] at hst
    split at hst
    · rename_i hq
      cases hc.symm.trans hq
      cases hst
      refine hn ⟨port, q, packet, _, hr, get_setOwner_self _ _ _, hfull, rfl, ?_⟩
      simp only [guarded, setOwner, hr]
      exact decide_eq_true (congrArg shard hp.symm)
    · cases hst
  | pollSend | register | recv | unregister | freeReceiver => trivial

structure Sound (s : RouterLock) : Prop where
  linked : s.Linked
  free : ¬ s.Deadlocked shard

theorem sound_new : new.Sound shard := by
  refine ⟨linked_new, ?_⟩
  rintro ⟨port, q, packet, c, hr, -⟩
  cases hr

/-- Over every run, no state is deadlocked exactly as long as `unregister` is
not called on the queue that `route` waits for, and `route` does not start to
wait for a queue whose owner is inside `unregister`. -/
theorem not_deadlocked_iff_keepsLock (as : List Action) :
    StepSystem.EveryState (step shard) (fun s => ¬ s.Deadlocked shard) new as ↔
      StepSystem.EveryStep (step shard) KeepsLock new as := by
  have hexact (s : RouterLock) (a : Action) (t : RouterLock) (h : s.Sound shard)
      (hst : s.step shard a = some t) :
      (s.KeepsLock a → t.Sound shard) ∧ (¬ t.Deadlocked shard → s.KeepsLock a) :=
    ⟨fun hk => ⟨linked_step shard h.linked hst,
      not_deadlocked_step shard h.linked h.free hk hst⟩,
      fun hn => keepsLock_of_not_deadlocked shard h.linked hst hn⟩
  exact StepSystem.everyState_iff_everyStep hexact (fun _ h => h.free) (sound_new shard) as

/-- Nothing that any task does ends a deadlock. -/
theorem deadlocked_forever {action : Action} (hl : s.Linked) (h : s.Deadlocked shard)
    (hst : s.step shard action = some t) : t.Deadlocked shard := by
  obtain ⟨port, q, packet, c, hr, hc, hfull, hu, hg⟩ := h
  -- an owner that is not inside `unregister` is another one
  have hother {j : ℕ} {d d' : QueueOwner} (hj : s.owners.get j = some d)
      (hne : d.phase ≠ .unregistering) : (s.setOwner j d').Deadlocked shard := by
    have hqj : q ≠ j := by
      rintro rfl
      cases hc.symm.trans hj
      exact hne hu
    exact ⟨port, q, packet, c, hr, (get_setOwner_of_ne s d' hqj).trans hc, hfull, hu, hg⟩
  cases action with
  | packetArrives packet =>
    simp only [step, hr, reduceCtorEq] at hst
  | pollSend =>
    simp only [step, hr, hc, Option.map_some, Option.some.injEq] at hst
    subst hst
    obtain ⟨d, hd, hp⟩ := hl.reader port q packet hr
    cases hc.symm.trans hd
    exact deadlocked_of_send shard packet hc hp hu hfull
  | register p =>
    simp only [step, Option.ite_none_left_eq_some, Option.some.injEq] at hst
    obtain ⟨-, rfl⟩ := hst
    have hne : q ≠ s.nextQueue := Nat.ne_of_lt (hl.fresh q c hc)
    exact ⟨port, q, packet, c, hr, (KeyTable.get_insert_of_ne _ _ hne).trans hc, hfull, hu, hg⟩
  | recv j | callUnregister j =>
    simp only [step] at hst
    split at hst
    · rename_i hj
      cases hst
      exact hother hj fun hp => by cases hp
    · cases hst
  | unregister j =>
    simp only [step] at hst
    split at hst
    · rename_i p packets hj
      split at hst <;> cases hst
      rename_i hfree
      -- the owner that the loop waits for does not get the lock
      have hqj : q ≠ j := by
        rintro rfl
        cases hc.symm.trans hj
        exact hfree hg
      exact ⟨port, q, packet, c, hr, (get_setOwner_of_ne s _ hqj).trans hc, hfull, hu, hg⟩
    · cases hst
  | freeReceiver j =>
    simp only [step] at hst
    split at hst
    · rename_i hj
      cases hst
      exact hother hj fun hp => by cases hp
    · rename_i hj
      cases hst
      exact hother hj fun hp => by cases hp
    · cases hst

/-- The reader loop stays where it is for the whole run. -/
theorem deadlocked_run (hl : s.Linked) (h : s.Deadlocked shard) (as : List Action) :
    StepSystem.EveryState (step shard) (fun t => t.Deadlocked shard) s as := by
  have hstep (s : RouterLock) (a : Action) (t : RouterLock)
      (h : s.Linked ∧ s.Deadlocked shard) (_ : True) (hst : s.step shard a = some t) :
      t.Linked ∧ t.Deadlocked shard :=
    ⟨linked_step shard h.1 hst, deadlocked_forever shard h.1 h.2 hst⟩
  exact (StepSystem.everyState_of_everyStep hstep ⟨hl, h⟩
    (StepSystem.everyStep_true s as)).mono fun _ h => h.2

/-- A packet of the device for port 1. -/
def packetFor1 : UsbDevicePacket := buildTcp 0 0 (tcpHeader 62078 1 1 1 .ACK)

/-- One connection, on port 1, with `n` packets that it has not received. -/
def filled (n : ℕ) : RouterLock where
  conns := KeyTable.empty.insert 1 0
  owners := KeyTable.empty.insert 0 ⟨1, List.replicate n packetFor1, .running⟩
  reader := .reading
  nextQueue := 1

theorem filled_step {n : ℕ} (h : n < QUEUE_SIZE) :
    (filled n).step shard (.packetArrives packetFor1) = some (filled (n+1)) := by
  have hroom : ¬ (⟨1, List.replicate n packetFor1, .running⟩ : QueueOwner).Full := by
    simp only [QueueOwner.Full, List.length_replicate]
    omega
  have hsend : (filled n).send 1 0 ⟨1, List.replicate n packetFor1, .running⟩ packetFor1 =
      filled (n+1) := by
    unfold RouterLock.send
    rw [if_neg nofun, if_neg hroom, ← List.replicate_succ']
    rfl
  exact congrArg some hsend

theorem filled_after (m n : ℕ) (h : m+n ≤ QUEUE_SIZE) :
    StepSystem.after (step shard) (filled m) (List.replicate n (.packetArrives packetFor1)) =
      some (filled (m+n)) := by
  induction n generalizing m with
  | zero => rfl
  | succ n ih =>
    rw [List.replicate_succ, StepSystem.after, filled_step shard (by omega), Option.bind_some,
      ih (m+1) (by omega), Nat.add_right_comm, Nat.add_assoc]

/-- The reader loop suspended on a queue of `n` packets. -/
def suspended (n : ℕ) : RouterLock := { filled n with reader := .sending 1 0 packetFor1 }

theorem filled_suspends {n : ℕ} (h : QUEUE_SIZE ≤ n) :
    (filled n).step shard (.packetArrives packetFor1) = some (suspended n) := by
  have hfull : (⟨1, List.replicate n packetFor1, .running⟩ : QueueOwner).Full := by
    simpa only [QueueOwner.Full, List.length_replicate] using h
  have hsend : (filled n).send 1 0 ⟨1, List.replicate n packetFor1, .running⟩ packetFor1 =
      suspended n := by
    unfold RouterLock.send
    rw [if_neg nofun, if_pos hfull]
    rfl
  exact congrArg some hsend

theorem suspended_deadlocks {n : ℕ} (h : QUEUE_SIZE ≤ n) :
    ∃ t, (suspended n).step shard (.callUnregister 0) = some t ∧ t.Deadlocked shard := by
  refine ⟨(suspended n).setOwner 0 ⟨1, List.replicate n packetFor1, .unregistering⟩, rfl,
    1, 0, packetFor1, _, rfl, rfl, ?_, rfl, decide_eq_true rfl⟩
  simpa only [QueueOwner.Full, List.length_replicate] using h

/-- The connection stops receiving, 257 packets arrive for it, and its owner
calls `unregister`. -/
theorem router_deadlocks :
    ¬ ∀ (shard : UInt16 → ℕ) (as : List Action),
      StepSystem.EveryState (step shard) (fun s => ¬ s.Deadlocked shard) new as := by
  intro h
  obtain ⟨n, hn⟩ : ∃ n, n = QUEUE_SIZE := ⟨_, rfl⟩
  obtain ⟨t, ht, hd⟩ := suspended_deadlocks (fun _ => 0) (Nat.le_of_eq hn.symm)
  have hrun := h (fun _ => 0) (.register 1 :: (List.replicate n (.packetArrives packetFor1) ++
    [.packetArrives packetFor1, .callUnregister 0]))
  refine hrun.last ?_ hd
  change StepSystem.after (step fun _ => 0) (filled 0) _ = _
  rw [StepSystem.after_append, filled_after _ 0 n (by omega), Option.bind_some, Nat.zero_add,
    StepSystem.after, filled_suspends _ (Nat.le_of_eq hn.symm), Option.bind_some,
    StepSystem.after, ht]
  rfl

end RouterLock

end Rusbmux
