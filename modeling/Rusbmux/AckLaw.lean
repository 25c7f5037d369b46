import Rusbmux.UsbConn

/-! What the ACKs of a connection acknowledge, over a whole packet history. -/
namespace Rusbmux

/-- A packet of the device that carries stream data. -/
structure DataPacket where
  header : UsbDevicePacketHeaderV2
  tcpHdr : TcpHeader
  payload : Bytes

namespace DataPacket

def toPacket (p : DataPacket) : UsbDevicePacket := ⟨.v2 p.header, some p.tcpHdr, .bytes p.payload⟩

/-- The sequence number after the packet's last byte. -/
def next (p : DataPacket) : UInt32 := p.tcpHdr.sequenceNumber+UInt32.ofNat p.payload.length

end DataPacket

/-- Every packet starts where the one before it ends. -/
def InOrder (ps : List DataPacket) : Prop :=
  ps.IsChain fun p q => q.tcpHdr.sequenceNumber = p.next

/-- The stream bytes the packets carry. -/
def streamBytes (ps : List DataPacket) : ℕ := (ps.flatMap DataPacket.payload).length

/-- The number that a packet acknowledges. -/
def ackNumber (p : UsbDevicePacket) : Option UInt32 :=
  p.tcpHdr.map TcpHeader.acknowledgmentNumber

/-- In order, the bytes of a history end where its last packet ends. -/
theorem inOrder_next {p : DataPacket} {ps : List DataPacket} (h : InOrder (p :: ps)) :
    p.tcpHdr.sequenceNumber+UInt32.ofNat (streamBytes (p :: ps)) =
      ((p :: ps).getLast (List.cons_ne_nil p ps)).next := by
  induction ps generalizing p with
  | nil => simp only [streamBytes, List.flatMap_cons, List.flatMap_nil, List.append_nil,
      List.getLast_singleton, DataPacket.next]
  | cons q qs ih =>
    obtain ⟨hpq, hq⟩ := List.isChain_cons_cons.mp h
    rw [List.getLast_cons (List.cons_ne_nil q qs), ← ih hq, hpq]
    have hsum : streamBytes (p :: q :: qs) = p.payload.length+streamBytes (q :: qs) := by
      rw [streamBytes, List.flatMap_cons, List.length_append]
      rfl
    rw [hsum, UInt32.ofNat_add, ← UInt32.add_assoc]
    rfl

namespace UsbDeviceConn

/-- One `recv` acknowledges the first byte of the packet, not the byte after it. -/
theorem recv_data (conn : UsbDeviceConn) (p : DataPacket) :
    (conn.recv p.toPacket).1.receivedBytes = p.tcpHdr.sequenceNumber ∧
      ackNumber (conn.recv p.toPacket).2 = some p.tcpHdr.sequenceNumber :=
  ⟨rfl, rfl⟩

/-- The ACKs of a history acknowledge the sequence numbers of its packets. -/
theorem recvAll_acks (conn : UsbDeviceConn) (ps : List DataPacket) :
    (conn.recvAll (ps.map DataPacket.toPacket)).2.map ackNumber =
      ps.map fun p => some p.tcpHdr.sequenceNumber := by
  induction ps generalizing conn with
  | nil => rfl
  | cons p ps ih =>
    simp only [List.map_cons, recvAll, ih, (recv_data conn p).2]

/-- The counter after a history is the last packet's sequence number. -/
theorem recvAll_receivedBytes (conn : UsbDeviceConn) (p : DataPacket) (ps : List DataPacket) :
    (conn.recvAll ((p :: ps).map DataPacket.toPacket)).1.receivedBytes =
      ((p :: ps).getLast (List.cons_ne_nil p ps)).tcpHdr.sequenceNumber := by
  induction ps generalizing conn p with
  | nil => rfl
  | cons q qs ih =>
    rw [List.getLast_cons (List.cons_ne_nil q qs)]
    exact ih (conn.recv p.toPacket).1 q

/-- The law for a history that starts with `p`: its last ACK acknowledges the
end of its last packet, and the counter has every byte of it. -/
structure AcknowledgesAll (conn : UsbDeviceConn) (p : DataPacket) (ps : List DataPacket) :
    Prop where
  lastAck : (conn.recvAll ((p :: ps).map DataPacket.toPacket)).2.getLast?.bind ackNumber =
    some ((p :: ps).getLast (List.cons_ne_nil p ps)).next
  counted : (conn.recvAll ((p :: ps).map DataPacket.toPacket)).1.receivedBytes =
    p.tcpHdr.sequenceNumber+UInt32.ofNat (streamBytes (p :: ps))

theorem recvAll_lastAck (conn : UsbDeviceConn) (p : DataPacket) (ps : List DataPacket) :
    (conn.recvAll ((p :: ps).map DataPacket.toPacket)).2.getLast?.bind ackNumber =
      some ((p :: ps).getLast (List.cons_ne_nil p ps)).tcpHdr.sequenceNumber := by
  have hacks := congrArg List.getLast? (recvAll_acks conn (p :: ps))
  rw [List.getLast?_map, List.getLast?_map, List.getLast?_eq_some_getLast
    (List.cons_ne_nil p ps)] at hacks
  obtain ⟨a, ha, hn⟩ := Option.map_eq_some_iff.mp hacks
  rw [ha]
  exact hn

end UsbDeviceConn

theorem ofNat_eq_zero_iff (n : ℕ) : UInt32.ofNat n = 0 ↔ n % UInt32.size = 0 := by
  rw [← UInt32.toNat_inj, UInt32.toNat_ofNat']
  rfl

theorem eq_next_iff (p : DataPacket) :
    p.tcpHdr.sequenceNumber = p.next ↔ p.payload.length % UInt32.size = 0 := by
  unfold DataPacket.next
  rw [← ofNat_eq_zero_iff, eq_comm, UInt32.add_eq_left]

/-- An in-order history is acknowledged exactly when its last packet is empty:
the ACK lags behind by one packet. -/
theorem acknowledgesAll_iff (conn : UsbDeviceConn) (p : DataPacket) (ps : List DataPacket)
    (h : InOrder (p :: ps)) :
    conn.AcknowledgesAll p ps ↔
      ((p :: ps).getLast (List.cons_ne_nil p ps)).payload.length % UInt32.size = 0 := by
  rw [← eq_next_iff]
  constructor
  · intro hlaw
    have hlast := hlaw.lastAck
    rw [UsbDeviceConn.recvAll_lastAck] at hlast
    exact Option.some.inj hlast
  · intro hend
    constructor
    · rw [UsbDeviceConn.recvAll_lastAck, hend]
    · rw [UsbDeviceConn.recvAll_receivedBytes, inOrder_next h, hend]

/-- A packet of `n` zero bytes on the wire at sequence number `seq`. -/
def zeroPacket (seq : UInt32) (n : ℕ) : DataPacket where
  header := .new .tcp (UsbDevicePacket.HEADERS_LEN_V2+n) 0 0
  tcpHdr := tcpHeader 62078 1 seq 1 .ACK
  payload := List.replicate n 0

/-- Five bytes and then an empty packet, the first two data packets after a handshake. -/
theorem acknowledgesAll_of_empty_last :
    InOrder [zeroPacket 1 5, zeroPacket 6 0] ∧
      (UsbDeviceConn.newFrom 62078 1 1 1 512 1).AcknowledgesAll (zeroPacket 1 5)
        [zeroPacket 6 0] := by
  have h : InOrder [zeroPacket 1 5, zeroPacket 6 0] :=
    List.isChain_cons_cons.mpr ⟨by decide, .singleton _⟩
  exact ⟨h, (acknowledgesAll_iff _ _ _ h).mpr (by decide)⟩

/-- After one packet of five bytes the ACK is still 1 and not 6. -/
theorem not_acknowledged_five_bytes :
    ¬ ∀ (conn : UsbDeviceConn) (p : DataPacket) (ps : List DataPacket), InOrder (p :: ps) →
      conn.AcknowledgesAll p ps := by
  intro h
  have hlaw := h (.newFrom 62078 1 1 1 512 1) (zeroPacket 1 5) [] (.singleton _)
  exact absurd hlaw.counted (by decide)

end Rusbmux
