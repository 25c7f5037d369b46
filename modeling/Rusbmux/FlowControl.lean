import Rusbmux.Relay
import Mathlib.Data.Int.Notation

/-! The window of the device: what the counters of a connection say about the
bytes in flight, and what a relay sends. -/
namespace Rusbmux

namespace UsbDeviceConn

theorem windowBytes_toNat (w : UInt16) : (windowBytes w).toNat = w.toNat*256 := by
  have hw : w.toNat < 65536 := w.toNat_lt
  unfold windowBytes
  rw [UInt32.toNat_shiftLeft, UInt16.toNat_toUInt32, Nat.shiftLeft_eq]
  change w.toNat*256 % 4294967296 = w.toNat*256
  omega

theorem saturatingSub_toNat (a b : UInt32) : (saturatingSub a b).toNat = a.toNat-b.toNat := by
  unfold saturatingSub
  split
  · rename_i h
    exact UInt32.toNat_sub_of_le a b h
  · rename_i h
    have hlt : a.toNat < b.toNat := UInt32.lt_iff_toNat_lt.mp (UInt32.not_le.mp h)
    rw [Nat.sub_eq_zero_of_le (Nat.le_of_lt hlt)]
    rfl

/-- `calc_sendable_bytes` in natural numbers. -/
theorem calcSendableBytes_eq (sent : UInt32) (window : UInt16) (received : UInt32) :
    calcSendableBytes sent window received =
      min (window.toNat*256-(sent.toNat-received.toNat)) MAX_PACKET_PAYLOAD_SIZE := by
  have hw := windowBytes_toNat window
  have hs := saturatingSub_toNat sent received
  simp only [calcSendableBytes, gt_iff_lt]
  split
  · rename_i h
    have hlt := UInt32.lt_iff_toNat_lt.mp h
    rw [UInt32.toNat_sub_of_le _ _ (UInt32.le_of_lt h), hw, hs]
  · rename_i h
    have hle := UInt32.le_iff_toNat_le.mp (UInt32.not_lt.mp h)
    rw [hw, hs] at hle
    rw [Nat.sub_eq_zero_of_le hle, Nat.zero_min]

/-- The room for the counters as they stand. -/
def sendableNow (conn : UsbDeviceConn) : ℕ :=
  calcSendableBytes conn.sentBytes conn.deviceLastWindowSize conn.deviceLastReceivedBytes

/-- The counters stand for true totals, counted from the sequence number `base`. -/
structure Counted (base : ℕ) (conn : UsbDeviceConn) (sentTotal ackedTotal : ℕ) : Prop where
  sent : conn.sentBytes = UInt32.ofNat (base+sentTotal)
  acked : conn.deviceLastReceivedBytes = UInt32.ofNat (base+ackedTotal)
  le : ackedTotal ≤ sentTotal

theorem new_counted {sourcePort destinationPort : UInt16} {synAck ack : UsbDevicePacket}
    {conn : UsbDeviceConn} (h : new sourcePort destinationPort synAck = .ok (ack, conn)) :
    Counted conn.sentBytes.toNat conn 0 0 ∧ conn.sendableBytes = conn.sendableNow := by
  unfold new at h
  split at h
  · cases h
  · cases h
    exact ⟨⟨UInt32.ofNat_toNat.symm, UInt32.ofNat_toNat.symm, Nat.le_refl 0⟩, rfl⟩

theorem updateSendableBytes_sendableNow (conn : UsbDeviceConn) :
    conn.updateSendableBytes.sendableBytes = conn.updateSendableBytes.sendableNow := by
  unfold sendableNow updateSendableBytes
  rfl

theorem Counted.updateSendableBytes {base sentTotal ackedTotal : ℕ} {conn : UsbDeviceConn}
    (h : Counted base conn sentTotal ackedTotal) :
    Counted base conn.updateSendableBytes sentTotal ackedTotal := by
  unfold UsbDeviceConn.updateSendableBytes
  exact ⟨h.sent, h.acked, h.le⟩

/-- The sent and the acknowledged total have wrapped equally often. -/
def SameLap (base sentTotal ackedTotal : ℕ) : Prop :=
  (base+sentTotal)/UInt32.size = (base+ackedTotal)/UInt32.size

instance (base sentTotal ackedTotal : ℕ) : Decidable (SameLap base sentTotal ackedTotal) :=
  inferInstanceAs (Decidable (_ = _))

/-- In one lap the counters give the true number of bytes in flight, and over a
wide window a packet fits whatever they say. -/
theorem Counted.sendableNow_le {base sentTotal ackedTotal n : ℕ} {conn : UsbDeviceConn}
    (h : Counted base conn sentTotal ackedTotal)
    (hlap : SameLap base sentTotal ackedTotal ∨
      MAX_PACKET_PAYLOAD_SIZE+(sentTotal-ackedTotal) ≤ conn.deviceLastWindowSize.toNat*256)
    (hpos : 0 < n) (hn : n ≤ conn.sendableNow) :
    (n : ℤ) ≤ conn.deviceLastWindowSize.toNat*256-((sentTotal : ℤ)-ackedTotal) := by
  have hle := h.le
  unfold sendableNow at hn
  rw [calcSendableBytes_eq, h.sent, h.acked, UInt32.toNat_ofNat', UInt32.toNat_ofNat'] at hn
  have hmax := Nat.le_trans hn (Nat.min_le_right _ _)
  have hroom := Nat.le_trans hn (Nat.min_le_left _ _)
  rcases hlap with hlap | hwide
  · -- in one lap the wrapped difference is the true one
    unfold SameLap UInt32.size at hlap
    omega
  · omega

end UsbDeviceConn

namespace Relay

/-- `W-(S-A)` -/
def room (s : Relay) : ℤ :=
  (UsbDeviceConn.windowBytes s.conn.deviceLastWindowSize).toNat-
    ((s.sentTotal : ℤ)-s.ackedTotal)

/-- What is handed to `send_bytes` fits into the room, so nothing is sent when
there is none. -/
def WithinWindow (s : Relay) : Prop :=
  ∀ packet, s.phase = .sendBytes packet → 0 < packet.payload.len ∧ packet.payload.len ≤ s.room

/-- The packet acknowledges a true total. -/
def Arrival.Honest (base sentTotal : ℕ) (a : Arrival) : Prop :=
  a.acked ≤ sentTotal ∧
    ∀ h, a.packet.tcpHdr = some h → h.acknowledgmentNumber = UInt32.ofNat (base+a.acked)

/-- The device acknowledges no byte before it was sent. -/
def HonestDevice (base : ℕ) (s : Relay) : Action → Prop
  | .deviceData a => Arrival.Honest base s.sentTotal a
  | _ => True

/-- When the client arm wins, a packet that `conn.recv()` holds has not made
the room smaller than it was when `select!` was entered, and the counters are
in one lap or the window is wide. -/
def KeepsRoom (base : ℕ) (s : Relay) : Action → Prop
  | .pollClient _ => match s.phase with
    | .select sendable held => (held = none ∨ sendable ≤ s.conn.sendableNow) ∧
      (UsbDeviceConn.SameLap base s.sentTotal s.ackedTotal ∨
        MAX_PACKET_PAYLOAD_SIZE+(s.sentTotal-s.ackedTotal) ≤
          s.conn.deviceLastWindowSize.toNat*256)
    | _ => True
  | _ => True

/-- Where the value of `get_sendable_bytes` is up to date. -/
def UpToDate (s : Relay) : Prop :=
  match s.phase with
  | .select sendable none => sendable = s.conn.sendableNow
  | .clientSend _ => s.conn.sendableBytes = s.conn.sendableNow
  | _ => True

structure FlowInv (base : ℕ) (s : Relay) : Prop where
  counted : s.conn.Counted base s.sentTotal s.ackedTotal
  queued : ∀ a ∈ s.rx, Arrival.Honest base s.sentTotal a
  upToDate : s.UpToDate
  within : s.WithinWindow

/-- A step outside the connection and its queue. -/
theorem FlowInv.frame {base : ℕ} {s t : Relay} (h : FlowInv base s) (hc : t.conn = s.conn)
    (hr : t.rx = s.rx) (hp : t.phase = s.phase) (hs : t.sentTotal = s.sentTotal)
    (ha : t.ackedTotal = s.ackedTotal) : FlowInv base t := by
  obtain ⟨hcounted, hqueued, hfresh, hwithin⟩ := h
  refine ⟨by rwa [hc, hs, ha], by rwa [hr, hs], ?_, ?_⟩
  · unfold UpToDate
    rw [hp, hc]
    exact hfresh
  · unfold WithinWindow room
    rw [hp, hc, hs, ha]
    exact hwithin

/-- A step that only leaves for a phase in which nothing is read or sent. -/
theorem FlowInv.leave {base : ℕ} {s t : Relay} (h : FlowInv base s)
    (hc : t.conn.Counted base s.sentTotal s.ackedTotal) (hr : t.rx = s.rx)
    (hp : t.phase = .closing ∨ t.phase = .ended) (hs : t.sentTotal = s.sentTotal)
    (ha : t.ackedTotal = s.ackedTotal) : FlowInv base t := by
  refine ⟨by rwa [hs, ha], by rw [hr, hs]; exact h.queued, ?_, ?_⟩
  · unfold UpToDate
    rcases hp with hp | hp <;> rw [hp] <;> trivial
  · intro packet hpacket
    rcases hp with hp | hp <;> rw [hp] at hpacket <;> cases hpacket

theorem Counted.recvTake {base sentTotal ackedTotal : ℕ} {conn : UsbDeviceConn} {a : Arrival}
    (h : conn.Counted base sentTotal ackedTotal) (ha : Arrival.Honest base sentTotal a) :
    (conn.recvTake a.packet).Counted base sentTotal
      (if a.packet.tcpHdr.isSome then a.acked else ackedTotal) := by
  unfold UsbDeviceConn.recvTake
  cases hh : a.packet.tcpHdr with
  | none => exact ⟨h.sent, h.acked, h.le⟩
  | some hdr => exact ⟨h.sent, ha.2 hdr hh, ha.1⟩

theorem FlowInv.takePacket {base : ℕ} {s : Relay} (h : FlowInv base s) {a : Arrival}
    {rest : List Arrival} (hr : s.rx = a :: rest) :
    (s.takePacket a rest).conn.Counted base s.sentTotal (s.takePacket a rest).ackedTotal ∧
      ∀ b ∈ (s.takePacket a rest).rx, Arrival.Honest base s.sentTotal b := by
  have hq := h.queued
  rw [hr] at hq
  exact ⟨Counted.recvTake h.counted (hq a List.mem_cons_self),
    fun b hb => hq b (List.mem_cons_of_mem a hb)⟩

theorem flowInv_ackSent {base : ℕ} {s : Relay} (a : Arrival)
    (hc : s.conn.Counted base s.sentTotal s.ackedTotal)
    (hq : ∀ b ∈ s.rx, Arrival.Honest base s.sentTotal b) : FlowInv base (s.ackSent a) := by
  have hcounted : s.conn.updateSendableBytes.Counted base s.sentTotal s.ackedTotal :=
    hc.updateSendableBytes
  unfold ackSent
  refine ⟨hcounted, hq, s.conn.updateSendableBytes_sendableNow, ?_⟩
  intro packet hp
  cases hp

theorem flowInv_clientPacket {base sendable : ℕ} {s t : Relay} {held : Option Arrival}
    {packet : Bytes} (h : FlowInv base s) (hp : s.phase = .select sendable held)
    (hk : (held = none ∨ sendable ≤ s.conn.sendableNow) ∧
      (UsbDeviceConn.SameLap base s.sentTotal s.ackedTotal ∨
        MAX_PACKET_PAYLOAD_SIZE+(s.sentTotal-s.ackedTotal) ≤
          s.conn.deviceLastWindowSize.toNat*256))
    (hr : s.Reads sendable packet t) (hq : t.rx = s.rx) : FlowInv base (t.clientPacket packet) := by
  have hle : sendable ≤ s.conn.sendableNow := by
    rcases hk.1 with hnone | hle
    · have hfresh := h.upToDate
      unfold UpToDate at hfresh
      rw [hp, hnone] at hfresh
      exact Nat.le_of_eq hfresh
    · exact hle
  unfold clientPacket
  split
  · -- nothing was read: the client has closed
    refine h.leave ?_ hq (.inl rfl) hr.sentTotal hr.ackedTotal
    rw [hr.conn]
    exact ⟨h.counted.sent, h.counted.acked, h.counted.le⟩
  · rename_i hne
    have hpos := List.length_pos_iff.mpr hne
    -- `read` returns no more than `sendable`, which is no more than the room now
    have hroom := h.counted.sendableNow_le hk.2 hpos (Nat.le_trans hr.length_le hle)
    refine ⟨by rw [hr.conn, hr.sentTotal, hr.ackedTotal]; exact h.counted,
      by rw [hq, hr.sentTotal]; exact h.queued, trivial, ?_⟩
    rintro p ⟨⟩
    refine ⟨hpos, ?_⟩
    unfold room
    rw [hr.conn, hr.sentTotal, hr.ackedTotal, UsbDeviceConn.windowBytes_toNat]
    change (packet.length : ℤ) ≤ _
    omega

theorem flowInv_sendDone {base : ℕ} {s : Relay} (h : FlowInv base s)
    (packet : UsbDevicePacket) :
    FlowInv base (loop { s with
      wTx := s.wTx ++ [packet]
      conn := s.conn.packetSent packet
      sentTotal := s.sentTotal+packet.payload.len }) := by
  have hle := h.counted.le
  refine ⟨⟨?_, h.counted.acked, Nat.le_trans hle (Nat.le_add_right _ _)⟩, ?_,
    UsbDeviceConn.updateSendableBytes_sendableNow _, fun _ hp => by cases hp⟩
  · -- the counter wraps, the total does not
    change s.conn.sentBytes+UInt32.ofNat packet.payload.len =
      UInt32.ofNat (base+(s.sentTotal+packet.payload.len))
    rw [h.counted.sent, ← Nat.add_assoc, UInt32.ofNat_add (base+s.sentTotal)]
  · intro a ha
    have hq := h.queued a ha
    exact ⟨Nat.le_trans hq.1 (Nat.le_add_right _ _), hq.2⟩

/-- Every step of the relay that keeps room keeps the counters true. -/
theorem flowInv_step {base : ℕ} {s t : Relay} {action : Action} (h : FlowInv base s)
    (hd : HonestDevice base s action) (hk : KeepsRoom base s action)
    (hst : s.step action = some t) : FlowInv base t := by
  have hcounted : s.conn.Counted base s.sentTotal s.ackedTotal := h.counted
  cases move_of_step hst with
  | deviceData a =>
    refine ⟨h.counted, ?_, h.upToDate, h.within⟩
    intro b hb
    rcases List.mem_append.mp hb with hb | hb
    · exact h.queued b hb
    · rw [List.mem_singleton.mp hb]
      exact hd
  | writerTakes | otherSends | clientWrites | clientCloses | cancel =>
    exact h.frame rfl rfl rfl rfl rfl
  -- the counters are taken over before the ACK, whether it can be sent or not
  | acked sendable a rest hp hrx =>
    obtain ⟨hc, hq⟩ := h.takePacket hrx
    exact flowInv_ackSent a hc hq
  | held sendable a rest hp hrx =>
    obtain ⟨hc, hq⟩ := h.takePacket hrx
    exact ⟨hc, hq, trivial, fun _ hp => by cases hp⟩
  | pollAck sendable a hp => exact flowInv_ackSent a h.counted h.queued
  | recvFails | clientReadFails | pollShutdown | clientSendFails | sendFails | closeDone =>
    exact h.leave hcounted rfl (.inr rfl) rfl rfl
  | pollClient k sendable held packet u hp hpos hu =>
    simp only [KeepsRoom, hp] at hk
    have hr := clientRead_reads hpos hu
    exact flowInv_clientPacket h hp hk hr hr.rx
  | clientTakes k remaining hp =>
    have hfresh := h.upToDate
    unfold UpToDate at hfresh
    rw [hp] at hfresh
    exact ⟨h.counted, h.queued, hfresh, fun _ hp => by cases hp⟩
  | clientSendDone hp =>
    have hfresh := h.upToDate
    unfold UpToDate at hfresh
    rw [hp] at hfresh
    exact ⟨h.counted, h.queued, hfresh, fun _ hp => by cases hp⟩
  | sendDone packet hp => exact flowInv_sendDone h packet

theorem flowInv_start {base sentTotal ackedTotal : ℕ} {conn : UsbDeviceConn}
    (hc : conn.Counted base sentTotal ackedTotal)
    (hs : conn.sendableBytes = conn.sendableNow) (wTx : List UsbDevicePacket) :
    FlowInv base (start conn [] wTx sentTotal ackedTotal) :=
  ⟨hc, fun _ ha => absurd ha List.not_mem_nil, hs, fun _ hp => by cases hp⟩

/-- With an honest device, a relay whose steps all keep the room never sends
more than fits into the window. -/
theorem withinWindow_of_keepsRoom {base sentTotal ackedTotal : ℕ} {conn : UsbDeviceConn}
    (hc : conn.Counted base sentTotal ackedTotal)
    (hs : conn.sendableBytes = conn.sendableNow) (wTx : List UsbDevicePacket)
    (as : List Action)
    (hd : StepSystem.EveryStep step (HonestDevice base)
      (start conn [] wTx sentTotal ackedTotal) as)
    (hk : StepSystem.EveryStep step (KeepsRoom base)
      (start conn [] wTx sentTotal ackedTotal) as) :
    StepSystem.EveryState step WithinWindow (start conn [] wTx sentTotal ackedTotal) as :=
  (StepSystem.everyState_of_everyStep
    (fun _ _ _ h hp hst => flowInv_step h hp.1 hp.2 hst)
    (flowInv_start hc hs wTx) (hd.and hk)).mono fun _ h => h.within

/-- A connection after its handshake, with a window of 128 KiB. -/
def openConn : UsbDeviceConn := .newFrom 62078 1 1 0 512 1

theorem openConn_counted : openConn.Counted 1 0 0 := ⟨rfl, rfl, Nat.le_refl 0⟩

/-- A packet that acknowledges `acked` bytes and announces `window`. -/
def windowUpdate (acked : ℕ) (window : UInt16) : Arrival where
  packet := buildTcp 0 0
    { tcpHeader 62078 1 0 (UInt32.ofNat (1+acked)) .ACK with windowSize := window }
  acked := acked

theorem windowUpdate_honest {sentTotal acked : ℕ} (h : acked ≤ sentTotal) (window : UInt16) :
    Arrival.Honest 1 sentTotal (windowUpdate acked window) :=
  ⟨h, fun _ hh => by cases hh; rfl⟩

/-- Three bytes are sent and acknowledged, and one more is sent. -/
def ackedRun : List Action :=
  [.clientWrites [1, 2, 3], .pollClient 3, .sendDone, .deviceData (windowUpdate 3 512),
    .pollRecv, .clientSendDone, .clientWrites [4], .pollClient 1]

theorem withinWindow_ackedRun :
    StepSystem.EveryStep step (HonestDevice 1) (start openConn [] [] 0 0) ackedRun ∧
      StepSystem.EveryStep step (KeepsRoom 1) (start openConn [] [] 0 0) ackedRun ∧
      StepSystem.EveryState step WithinWindow (start openConn [] [] 0 0) ackedRun := by
  have hd : StepSystem.EveryStep step (HonestDevice 1) (start openConn [] [] 0 0) ackedRun :=
    .intro trivial (.intro trivial (.intro trivial (.intro (windowUpdate_honest (by decide) 512)
      (.intro trivial (.intro trivial (.intro trivial (.intro trivial trivial)))))))
  have hk : StepSystem.EveryStep step (KeepsRoom 1) (start openConn [] [] 0 0) ackedRun :=
    .intro trivial (.intro ⟨.inl rfl, .inl (by decide)⟩ (.intro trivial (.intro trivial
      (.intro trivial (.intro trivial (.intro trivial
        (.intro ⟨.inl rfl, .inl (by decide)⟩ trivial)))))))
  exact ⟨hd, hk, withinWindow_of_keepsRoom openConn_counted rfl [] ackedRun hd hk⟩

set_option maxRecDepth 4000 in
/-- The device closes its window while the writer channel is full, and the
client arm still sends a byte. -/
theorem relay_sends_into_closed_window :
    ¬ ∀ (base sentTotal ackedTotal : ℕ) (conn : UsbDeviceConn) (wTx : List UsbDevicePacket)
      (as : List Action), conn.Counted base sentTotal ackedTotal →
      conn.sendableBytes = conn.sendableNow →
      StepSystem.EveryStep step (HonestDevice base) (start conn [] wTx sentTotal ackedTotal) as →
      StepSystem.EveryState step WithinWindow (start conn [] wTx sentTotal ackedTotal) as := by
  intro h
  have hrun := h 1 0 0 openConn (List.replicate QUEUE_SIZE openConn.tcpAck)
    [.deviceData (windowUpdate 0 0), .pollRecv, .clientWrites [4], .pollClient 1]
    openConn_counted rfl (.intro (windowUpdate_honest (by decide) 0)
      (.intro trivial (.intro trivial (.intro trivial trivial))))
  have hsent := (hrun.last rfl) _ rfl
  exact absurd hsent.2 (by decide)

end Relay

end Rusbmux
