import Rusbmux.RouterLock

/-! What the queues of src/device/packet_router.rs get of the packets that the
reader loop takes off the device. -/
namespace Rusbmux

/-- The router with the packets that the reader loop was given, each with the
queue that has its port then, and the packets that were received, each with
its queue. -/
structure PortRouting where
  router : RouterLock
  arrived : List (UsbDevicePacket × Option ℕ)
  received : List (ℕ × UsbDevicePacket)

namespace PortRouting

open RouterLock (isRst routePort)

-- the shard that a port is hashed to
variable (shard : UInt16 → ℕ)

inductive Action where
  | router (a : RouterLock.Action)
  /-- A call of `unregister` by anybody. -/
  | unregister (port : UInt16)

/-- The queue that is registered for the destination port of a TCP packet
without RST. -/
def target (s : RouterLock) (packet : UsbDevicePacket) : Option ℕ :=
  if isRst packet then none
  else packet.tcpHdr.bind fun h => s.conns.get h.destinationPort

def arrives (s : RouterLock) : RouterLock.Action → List (UsbDevicePacket × Option ℕ)
  | .packetArrives packet => [(packet, target s packet)]
  | _ => []

def receives (s : RouterLock) : RouterLock.Action → List (ℕ × UsbDevicePacket)
  | .recv q => match s.owners.get q with
    | some c => (c.packets.head?.map fun packet => (q, packet)).toList
    | none => []
  | _ => []

def step (s : PortRouting) : Action → Option PortRouting
  | .router a => (s.router.step shard a).map fun t =>
    ⟨t, s.arrived ++ arrives s.router a, s.received ++ receives s.router a⟩
  | .unregister port =>
    if s.router.guarded shard (shard port) then none
    else some { s with router := { s.router with conns := s.router.conns.unregister port } }

def new : PortRouting := ⟨.new, [], []⟩

/-- The packets of a log that are for the queue, in their order. -/
def arrivedFor (log : List (UsbDevicePacket × Option ℕ)) (q : ℕ) : List UsbDevicePacket :=
  log.filterMap fun p => if p.2 = some q then some p.1 else none

def receivedFrom (log : List (ℕ × UsbDevicePacket)) (q : ℕ) : List UsbDevicePacket :=
  log.filterMap fun p => if p.1 = q then some p.2 else none

/-- The packets in a queue. -/
def queued (s : RouterLock) (q : ℕ) : List UsbDevicePacket :=
  match s.owners.get q with
  | some c => c.packets
  | none => []

/-- The packet for which the reader loop waits for room in the queue. -/
def pending (s : RouterLock) (q : ℕ) : List UsbDevicePacket :=
  match s.reader with
  | .sending _ q' packet => if q' = q then [packet] else []
  | _ => []

/-- Every queue has had the packets for it, each once and in their order, and
nothing else. The last of them may wait for room. -/
def PortExact (s : PortRouting) : Prop :=
  ∀ q, receivedFrom s.received q ++ (queued s.router q ++ pending s.router q) =
    arrivedFor s.arrived q

/-- A port is registered once at a time, and a receiver is there as long as its
queue has a port or a packet waits for room in it. -/
def Proper (s : PortRouting) : Action → Prop
  | .router (.register port) => s.router.conns.get port = none
  | .router (.freeReceiver q) => (∀ port, s.router.conns.get port ≠ some q) ∧
    ∀ port packet, s.router.reader ≠ .sending port q packet
  | _ => True

/-- No connection has the port 0, which `get_next_source_port` never gives. -/
def NonzeroPort : Action → Prop
  | .router (.register port) => port ≠ 0
  | _ => True

/-- What a run keeps of the router. -/
structure Inv (s : RouterLock) : Prop where
  linked : s.Linked
  nonzero : s.conns.get 0 = none
  alive : ∀ port q c, s.conns.get port = some q → s.owners.get q = some c → c.phase ≠ .gone
  waiting : ∀ port q packet c, s.reader = .sending port q packet → s.owners.get q = some c →
    c.phase ≠ .gone

theorem inv_new : Inv .new := by
  refine ⟨RouterLock.linked_new, rfl, ?_, ?_⟩
  · intro port q c h
    cases h
  · intro port q packet c h
    cases h

variable {s t : RouterLock} {shard} {packet : UsbDevicePacket} {port : UInt16} {q : ℕ}
  {c : QueueOwner}

/-- A packet for no queue is one that the table has no entry for. -/
theorem target_eq (h : s.conns.get 0 = none) (hrst : isRst packet = false) :
    target s packet = s.conns.get (routePort packet) := by
  unfold target routePort
  rw [hrst]
  cases packet.tcpHdr with
  | none => exact h.symm
  | some hdr => rfl

theorem queued_setOwner_self (s : RouterLock) (q : ℕ) (c : QueueOwner) :
    queued (s.setOwner q c) q = c.packets := by
  unfold queued
  rw [RouterLock.get_setOwner_self]

theorem queued_setOwner_of_ne (s : RouterLock) (c : QueueOwner) {j : ℕ} (h : j ≠ q) :
    queued (s.setOwner q c) j = queued s j := by
  unfold queued
  rw [RouterLock.get_setOwner_of_ne s c h]

theorem queued_of_get (h : s.owners.get q = some c) : queued s q = c.packets := by
  unfold queued
  rw [h]

/-- A send puts the packet at the end of its queue, now or as soon as there is room. -/
theorem send_queued (hc : s.owners.get q = some c) (hgone : c.phase ≠ .gone) (j : ℕ) :
    queued (s.send port q c packet) j ++ pending (s.send port q c packet) j =
      queued s j ++ if q = j then [packet] else [] := by
  unfold RouterLock.send
  rw [if_neg hgone]
  by_cases hfull : c.Full
  · rw [if_pos hfull]
    rfl
  · rw [if_neg hfull]
    by_cases hj : j = q
    · subst hj
      have hqueue : queued (s.setOwner j { c with packets := c.packets ++ [packet] }) j =
          queued s j ++ [packet] := by
        rw [queued_setOwner_self, queued_of_get hc]
      rw [if_pos rfl]
      exact (List.append_nil _).trans hqueue
    · have hqueue := queued_setOwner_of_ne s { c with packets := c.packets ++ [packet] } hj
      rw [if_neg fun h => hj h.symm, List.append_nil]
      exact (List.append_nil _).trans hqueue

/-- An owner that goes on with the same packets. -/
theorem queued_setOwner (hc : s.owners.get q = some c) (c' : QueueOwner)
    (hpackets : c'.packets = c.packets) (j : ℕ) : queued (s.setOwner q c') j = queued s j := by
  by_cases hj : j = q
  · subst hj
    rw [queued_setOwner_self, queued_of_get hc, hpackets]
  · exact queued_setOwner_of_ne s c' hj

/-- A packet that arrives goes to the queue of its port. -/
theorem arrives_queued (hs : Inv s) (h : s.step shard (.packetArrives packet) = some t) (j : ℕ) :
    queued t j ++ pending t j =
      queued s j ++ pending s j ++ arrivedFor (arrives s (.packetArrives packet)) j := by
  simp only [RouterLock.step] at h
  cases hreader : s.reader with
  | reading =>
    have hpending : pending s j = [] := by
      unfold pending
      rw [hreader]
    rw [hreader] at h
    cases h
    rw [hpending, List.append_nil]
    have hnowhere (htarget : target s packet = none) :
        arrivedFor (arrives s (.packetArrives packet)) j = [] := by
      simp [arrivedFor, arrives, htarget]
    by_cases hrst : isRst packet = true
    · have htarget : target s packet = none := if_pos hrst
      rw [if_pos hrst, hnowhere htarget, hpending]
    · have htarget := target_eq hs.nonzero ((Bool.not_eq_true _).mp hrst)
      rw [if_neg hrst]
      unfold RouterLock.route
      cases hport : s.conns.get (routePort packet) with
      | none =>
        rw [hport] at htarget
        rw [hnowhere htarget]
        exact congrArg _ hpending
      | some q =>
        obtain ⟨c, hc, -⟩ := hs.linked.table _ q hport
        rw [hport] at htarget
        simp only [hc]
        rw [send_queued hc (hs.alive _ q c hport hc)]
        by_cases hj : q = j <;> simp [arrivedFor, arrives, htarget, hj]
  | sending p q pk =>
    rw [hreader] at h
    cases h
  | unregistering p =>
    rw [hreader] at h
    cases h

/-- The packet that is received is the first of its queue. -/
theorem recv_queued (h : s.step shard (.recv q) = some t) (j : ℕ) :
    receivedFrom (receives s (.recv q)) j ++ queued t j = queued s j ∧ t.reader = s.reader := by
  simp only [RouterLock.step] at h
  split at h
  next port first rest hc =>
    cases h
    refine ⟨?_, rfl⟩
    by_cases hj : j = q
    · subst hj
      rw [queued_setOwner_self, queued_of_get hc]
      simp [receivedFrom, receives, hc]
    · have hne : q ≠ j := fun heq => hj heq.symm
      rw [queued_setOwner_of_ne s _ hj]
      simp [receivedFrom, receives, hc, hne]
  next => cases h

/-- What a step of the router does to a queue. -/
theorem step_queued {a : RouterLock.Action} (hs : Inv s) (h : s.step shard a = some t) (j : ℕ) :
    receivedFrom (receives s a) j ++ (queued t j ++ pending t j) =
      queued s j ++ pending s j ++ arrivedFor (arrives s a) j := by
  -- a step that leaves every queue and the reader loop alone
  have hsame (hqueued : queued t j = queued s j) (hreader : t.reader = s.reader) :
      [] ++ (queued t j ++ pending t j) = queued s j ++ pending s j ++ [] := by
    unfold pending
    rw [hqueued, hreader, List.append_nil, List.nil_append]
  cases a with
  | packetArrives packet => exact arrives_queued hs h j
  | pollSend =>
    simp only [RouterLock.step] at h
    split at h
    next port q packet hreader =>
      obtain ⟨c, hc, -⟩ := hs.linked.reader port q packet hreader
      rw [hc] at h
      cases h
      -- the packet in hand takes its place at the end of its queue
      have hpending : pending s j = if q = j then [packet] else [] := by
        unfold pending
        rw [hreader]
      rw [send_queued hc (hs.waiting port q packet c hreader hc), hpending]
      exact (List.append_nil _).symm
    next => cases h
  | register port =>
    simp only [RouterLock.step, Option.ite_none_left_eq_some, Option.some.injEq] at h
    obtain ⟨-, rfl⟩ := h
    refine hsame ?_ rfl
    by_cases hj : j = s.nextQueue
    · -- the number of the new queue was no queue's before
      have hnone : s.owners.get j = none := by
        apply Option.eq_none_iff_forall_ne_some.mpr
        intro c hc
        exact Nat.lt_irrefl j (hj ▸ hs.linked.fresh j c hc)
      subst hj
      unfold queued
      rw [hnone, KeyTable.get_insert_self]
    · exact queued_setOwner_of_ne s _ hj
  | recv q =>
    obtain ⟨hqueued, hreader⟩ := recv_queued h j
    unfold pending
    rw [← List.append_assoc, hqueued, hreader]
    exact (List.append_nil _).symm
  | callUnregister q =>
    simp only [RouterLock.step] at h
    split at h
    next hc =>
      cases h
      exact hsame (queued_setOwner hc ⟨_, _, .unregistering⟩ rfl j) rfl
    next => cases h
  | unregister q =>
    simp only [RouterLock.step] at h
    split at h
    next hc =>
      split_ifs at h
      cases h
      exact hsame (queued_setOwner hc ⟨_, _, .closed⟩ rfl j) rfl
    next => cases h
  | freeReceiver q =>
    simp only [RouterLock.step] at h
    split at h
    next hc =>
      cases h
      exact hsame (queued_setOwner hc ⟨_, _, .gone⟩ rfl j) rfl
    next hc =>
      cases h
      exact hsame (queued_setOwner hc ⟨_, _, .gone⟩ rfl j) rfl
    next => cases h

/-- An owner that changes, and drops its receiver only if nobody sends to it. -/
theorem Inv.setOwner (hs : Inv s) (hc : s.owners.get q = some c) (c' : QueueOwner)
    (hport : c'.port = c.port) (hgone : c'.phase = .gone →
      (∀ port, s.conns.get port ≠ some q) ∧ ∀ port packet, s.reader ≠ .sending port q packet) :
    Inv (s.setOwner q c') := by
  refine ⟨hs.linked.setOwner c' hc hport, hs.nonzero, fun port j d hj hd => ?_,
    fun port j packet d hj hd => ?_⟩
  · by_cases hjq : j = q
    · subst hjq
      rw [RouterLock.get_setOwner_self] at hd
      cases hd
      exact fun hphase => (hgone hphase).1 port hj
    · rw [RouterLock.get_setOwner_of_ne s c' hjq] at hd
      exact hs.alive port j d hj hd
  · by_cases hjq : j = q
    · subst hjq
      rw [RouterLock.get_setOwner_self] at hd
      cases hd
      exact fun hphase => (hgone hphase).2 port packet hj
    · rw [RouterLock.get_setOwner_of_ne s c' hjq] at hd
      exact hs.waiting port j packet d hj hd

theorem Inv.send (hs : Inv s) (hc : s.owners.get q = some c) (hport : c.port = port)
    (hgone : c.phase ≠ .gone) : Inv (s.send port q c packet) := by
  have hlinked := hs.linked.send hc hport packet
  unfold RouterLock.send at hlinked ⊢
  rw [if_neg hgone] at hlinked ⊢
  by_cases hfull : c.Full
  · rw [if_pos hfull] at hlinked ⊢
    refine ⟨hlinked, hs.nonzero, hs.alive, fun p j pk d hj hd => ?_⟩
    cases hj
    rw [hc] at hd
    cases hd
    exact hgone
  · rw [if_neg hfull] at hlinked ⊢
    have hset := hs.setOwner hc { c with packets := c.packets ++ [packet] } rfl
      fun h => absurd h hgone
    refine ⟨hlinked, hs.nonzero, hset.alive, fun p j pk d hj => ?_⟩
    cases hj

theorem Inv.unregister (hs : Inv s) (port : UInt16) :
    Inv { s with conns := s.conns.unregister port } := by
  have hless := RouterLock.unregister_less s.conns port
  refine ⟨hs.linked.conns hless, ?_, fun p j c h hc => hs.alive p j c (hless p j h) hc, hs.waiting⟩
  apply Option.eq_none_iff_forall_ne_some.mpr
  intro j h
  have hzero := hless 0 j h
  rw [hs.nonzero] at hzero
  cases hzero

theorem Inv.packetArrives (hs : Inv s) (h : s.step shard (.packetArrives packet) = some t) :
    Inv t := by
  simp only [RouterLock.step] at h
  split at h
  · cases h
    split_ifs
    · exact hs
    · unfold RouterLock.route
      cases hport : s.conns.get (routePort packet) with
      | none => exact hs
      | some q =>
        obtain ⟨c, hc, hcport⟩ := hs.linked.table _ q hport
        simp only [hc]
        exact hs.send hc hcport (hs.alive _ q c hport hc)
  · cases h

theorem Inv.register (hs : Inv s) (hport : port ≠ 0) (hlinked : t.Linked)
    (h : s.step shard (.register port) = some t) : Inv t := by
  simp only [RouterLock.step, Option.ite_none_left_eq_some, Option.some.injEq] at h
  obtain ⟨-, rfl⟩ := h
  have hold (j : ℕ) (c d : QueueOwner) (hj : s.owners.get j = some c)
      (hd : (s.owners.insert s.nextQueue ⟨port, [], .running⟩).get j = some d) :
      s.owners.get j = some d := by
    rwa [KeyTable.get_insert_of_ne _ _ (Nat.ne_of_lt (hs.linked.fresh j c hj))] at hd
  refine ⟨hlinked, ?_, fun p j d hj hd => ?_, fun p j pk d hj hd => ?_⟩
  · rw [PacketRouter.register, KeyTable.get_insert_of_ne _ _ hport.symm]
    exact hs.nonzero
  · rw [PacketRouter.register, KeyTable.get_insert] at hj
    split_ifs at hj with hp
    · cases hj
      rw [KeyTable.get_insert_self] at hd
      cases hd
      intro hphase
      cases hphase
    · obtain ⟨c, hc, -⟩ := hs.linked.table p j hj
      exact hs.alive p j d hj (hold j c d hc hd)
  · obtain ⟨c, hc, -⟩ := hs.linked.reader p j pk hj
    exact hs.waiting p j pk d hj (hold j c d hc hd)

theorem Inv.step {a : RouterLock.Action} (hs : Inv s) (hproper : Proper ⟨s, [], []⟩ (.router a))
    (hport : NonzeroPort (.router a)) (h : s.step shard a = some t) : Inv t := by
  cases a with
  | packetArrives packet => exact hs.packetArrives h
  | register port => exact hs.register hport (RouterLock.linked_step shard hs.linked h) h
  | pollSend =>
    simp only [RouterLock.step] at h
    split at h
    next port q packet hreader =>
      obtain ⟨c, hc, hcport⟩ := hs.linked.reader port q packet hreader
      rw [hc] at h
      cases h
      exact hs.send hc hcport (hs.waiting port q packet c hreader hc)
    next => cases h
  | recv q | callUnregister q =>
    simp only [RouterLock.step] at h
    split at h
    next hc =>
      cases h
      exact hs.setOwner hc _ rfl fun hphase => by cases hphase
    next => cases h
  | unregister q =>
    simp only [RouterLock.step] at h
    split at h
    next port packets hc =>
      split_ifs at h
      cases h
      have hclosed := hs.setOwner hc ⟨port, packets, .closed⟩ rfl fun hphase => by cases hphase
      exact hclosed.unregister port
    next => cases h
  | freeReceiver q =>
    simp only [RouterLock.step] at h
    split at h
    next hc =>
      cases h
      exact hs.setOwner hc _ rfl fun _ => hproper
    next hc =>
      cases h
      exact hs.setOwner hc _ rfl fun _ => hproper
    next => cases h

/-- The packets of a connection come to its queue, each once and in their order,
whatever else is registered and unregistered meanwhile. -/
theorem portExact_of_proper (shard : UInt16 → ℕ) (as : List Action)
    (hproper : StepSystem.EveryStep (step shard) Proper new as)
    (hports : StepSystem.EveryStep (step shard) (fun _ => NonzeroPort) new as) :
    StepSystem.EveryState (step shard) PortExact new as := by
  have hstep (s : PortRouting) (a : Action) (t : PortRouting) (hs : Inv s.router ∧ s.PortExact)
      (ha : s.Proper a ∧ NonzeroPort a) (hst : s.step shard a = some t) :
      Inv t.router ∧ t.PortExact := by
    cases a with
    | router a =>
      obtain ⟨u, hu, rfl⟩ := Option.map_eq_some_iff.mp hst
      refine ⟨hs.1.step (by cases a <;> exact ha.1) ha.2 hu, fun q => ?_⟩
      calc receivedFrom (s.received ++ receives s.router a) q ++ (queued u q ++ pending u q)
          = receivedFrom s.received q ++
              (receivedFrom (receives s.router a) q ++ (queued u q ++ pending u q)) := by
            rw [receivedFrom, List.filterMap_append, List.append_assoc]
            rfl
        _ = receivedFrom s.received q ++ (queued s.router q ++ pending s.router q ++
              arrivedFor (arrives s.router a) q) := by rw [step_queued hs.1 hu q]
        _ = arrivedFor s.arrived q ++ arrivedFor (arrives s.router a) q := by
            rw [← List.append_assoc, hs.2 q]
        _ = arrivedFor (s.arrived ++ arrives s.router a) q := List.filterMap_append.symm
    | unregister port =>
      simp only [step, Option.ite_none_left_eq_some, Option.some.injEq] at hst
      obtain ⟨-, rfl⟩ := hst
      exact ⟨hs.1.unregister port, hs.2⟩
  have hnew : PortExact new := fun q => rfl
  have hrun := StepSystem.everyState_of_everyStep hstep ⟨inv_new, hnew⟩ (hproper.and hports)
  exact hrun.mono fun s hs => hs.2

/-- A packet of the device for a port. -/
def packetFor (port : UInt16) : UsbDevicePacket :=
  buildTcp 0 0 (tcpHeader 62078 port 1 1 .ACK)

/-- Two connections and packets for both, the second after one was received. -/
def twoPorts : List Action :=
  [.router (.register 1), .router (.packetArrives (packetFor 2)), .router (.register 2),
    .router (.packetArrives (packetFor 1)), .router (.packetArrives (packetFor 2)),
    .router (.recv 0), .unregister 1, .router (.packetArrives (packetFor 1))]

theorem portExact_twoPorts :
    StepSystem.EveryState (step fun _ => 0) PortExact new twoPorts := by
  have h1 : (1 : UInt16) ≠ 0 := by decide
  have h2 : (2 : UInt16) ≠ 0 := by decide
  apply portExact_of_proper
  · exact ⟨rfl, trivial, rfl, trivial, trivial, trivial, trivial, trivial, trivial⟩
  · exact ⟨h1, trivial, h2, trivial, trivial, trivial, trivial, trivial, trivial⟩

/-- The packet of a device that tells its version. -/
def versionPacket : UsbDevicePacket := ⟨.v1 ⟨0, 20⟩, none, .version ⟨2, 0, 0⟩⟩

/-- A packet without a TCP header goes to the queue of port 0. -/
theorem not_portExact_versionPacket : ¬ ∀ (shard : UInt16 → ℕ) (as : List Action),
    StepSystem.EveryStep (step shard) Proper new as →
      StepSystem.EveryState (step shard) PortExact new as := by
  intro h
  have hproper : StepSystem.EveryStep (step fun _ => 0) Proper new
      [.router (.register 0), .router (.packetArrives versionPacket)] := ⟨rfl, trivial, trivial⟩
  have hlast := (h _ _ hproper).last rfl
  cases hlast 0

end PortRouting

end Rusbmux
