import Rusbmux.RouterLock

/-! What `UsbDeviceConn::new` takes for the answer to its SYN: src/conn/usb.rs,
with the reader loop that fills its queue. -/
namespace Rusbmux

namespace UsbDeviceConn

/-- The packets of the device that come to the queue of a port, in order. -/
def routedTo (sourcePort : UInt16) (packets : List UsbDevicePacket) : List UsbDevicePacket :=
  packets.filter fun p => !RouterLock.isRst p && decide (RouterLock.routePort p = sourcePort)

/-- `new`, with the answers of the writer channel to its two packets and what the
device sends once the queue is registered. There is no result while `recv` waits. -/
def handshake (sourcePort destinationPort : UInt16) (syn ack : Except String Unit)
    (packets : List UsbDevicePacket) : Option (Except RusbmuxError UsbDeviceConn) :=
  match syn with
  | .error e => some (.error (.channel e))
  | .ok () => match routedTo sourcePort packets with
    | [] => none
    | tcpSynAck :: _ => match new sourcePort destinationPort tcpSynAck with
      | .error e => some (.error e)
      | .ok (_, conn) => match ack with
        | .error e => some (.error (.channel e))
        | .ok () => some (.ok conn)

/-- The packet answers the SYN: it has both flags, and acknowledges the one byte. -/
def IsSynAck (p : UsbDevicePacket) : Prop :=
  ∃ h, p.tcpHdr = some h ∧ h.syn = true ∧ h.ack = true ∧ h.acknowledgmentNumber = 1

/-- A connection comes of an answer to the SYN alone, and starts behind it. -/
structure SoundHandshake (sourcePort : UInt16) (packets : List UsbDevicePacket)
    (result : Option (Except RusbmuxError UsbDeviceConn)) : Prop where
  opens : ∀ conn, result = some (.ok conn) →
    ∃ p rest h, routedTo sourcePort packets = p :: rest ∧ p.tcpHdr = some h ∧ IsSynAck p ∧
      conn.sentBytes = 1 ∧ conn.receivedBytes = h.sequenceNumber+1
  refuses : ∀ p rest, routedTo sourcePort packets = p :: rest → ¬ IsSynAck p →
    ∃ e, result = some (.error e)

/-- The writer refuses one of the two packets, or the first packet of the queue
has no TCP header. -/
def NoAnswer (sourcePort : UInt16) (syn ack : Except String Unit)
    (packets : List UsbDevicePacket) : Prop :=
  syn ≠ .ok () ∨ ack ≠ .ok () ∨
    ∀ p rest, routedTo sourcePort packets = p :: rest → p.tcpHdr = none

variable {sourcePort destinationPort : UInt16} {syn ack : Except String Unit}
  {packets rest : List UsbDevicePacket} {p : UsbDevicePacket}

/-- Any first packet with a TCP header opens the connection, on its own numbers. -/
theorem handshake_of_header {h : TcpHeader} (hr : routedTo sourcePort packets = p :: rest)
    (hp : p.tcpHdr = some h) :
    handshake sourcePort destinationPort (.ok ()) (.ok ()) packets =
      some (.ok (newFrom destinationPort sourcePort h.acknowledgmentNumber h.sequenceNumber
        h.windowSize h.acknowledgmentNumber)) := by
  simp only [handshake, hr, new, hp]

/-- Everything else ends in an error, if it ends. -/
theorem handshake_of_noAnswer (destinationPort : UInt16)
    (h : NoAnswer sourcePort syn ack packets) :
    (∀ conn, handshake sourcePort destinationPort syn ack packets ≠ some (.ok conn)) ∧
    ∀ p rest, routedTo sourcePort packets = p :: rest →
      ∃ e, handshake sourcePort destinationPort syn ack packets = some (.error e) := by
  -- each exit gives one and the same result
  have herr : ∀ {r : Option (Except RusbmuxError UsbDeviceConn)} {e : RusbmuxError},
      r = some (.error e) → (∀ conn, r ≠ some (.ok conn)) ∧ ∀ p rest,
        routedTo sourcePort packets = p :: rest → ∃ e, r = some (.error e) := by
    rintro r e rfl
    refine ⟨?_, fun _ _ _ => ⟨e, rfl⟩⟩
    intro conn hc
    cases hc
  cases syn with
  | error e => exact herr rfl
  | ok u =>
    cases hr : routedTo sourcePort packets with
    | nil =>
      simp only [handshake, hr]
      refine ⟨?_, ?_⟩
      · intro conn hc
        cases hc
      · intro p rest hp
        cases hp
    | cons p rest =>
      cases hp : p.tcpHdr with
      | none =>
        rw [← hr]
        apply herr
        simp only [handshake, hr, new, hp]
        rfl
      | some hdr =>
        cases ack with
        | error e =>
          rw [← hr]
          apply herr
          simp only [handshake, hr, new, hp]
          rfl
        | ok u =>
          -- nothing is left of the condition
          exfalso
          obtain h | h | h := h
          · exact h rfl
          · exact h rfl
          · cases hp.symm.trans (h p rest hr)

/-- For all packets of the device and all answers of the channel: the handshake
is sound exactly when it opens no connection. -/
theorem soundHandshake_iff (sourcePort destinationPort : UInt16) (syn ack : Except String Unit)
    (packets : List UsbDevicePacket) :
    SoundHandshake sourcePort packets
        (handshake sourcePort destinationPort syn ack packets) ↔
      NoAnswer sourcePort syn ack packets := by
  constructor
  · intro hs
    by_contra hn
    simp only [NoAnswer, ne_eq, not_or, not_not, not_forall] at hn
    obtain ⟨rfl, rfl, p, rest, hr, hp⟩ := hn
    obtain ⟨h, hh⟩ := Option.ne_none_iff_exists'.mp hp
    obtain ⟨p', rest', h', hr', hp', -, -, hrecv⟩ := hs.opens _ (handshake_of_header hr hh)
    -- the number of the reply is taken as it is
    rw [hr] at hr'
    cases hr'
    rw [hh] at hp'
    cases hp'
    have hsucc : h.sequenceNumber = h.sequenceNumber+1 := hrecv
    have hne : h.sequenceNumber ≠ h.sequenceNumber+1 := by grind
    exact hne hsucc
  · intro hn
    have ho := handshake_of_noAnswer destinationPort hn
    exact ⟨fun conn hc => absurd hc (ho.1 conn), fun p rest hr _ => ho.2 p rest hr⟩

/-- A data packet of an earlier connection on port 1. -/
def staleData : UsbDevicePacket :=
  buildTcpBytes AUTO_SEQ AUTO_SEQ (tcpHeader 62078 1 700 9 .ACK) [1, 2, 3]

theorem stale_data_opens_connection :
    ¬ SoundHandshake 1 [staleData] (handshake 1 62078 (.ok ()) (.ok ()) [staleData]) := by
  intro h
  have hno : ¬ IsSynAck staleData := by
    rintro ⟨hdr, hh, hs, -, -⟩
    cases hh
    cases hs
  obtain ⟨e, he⟩ := h.refuses staleData [] rfl hno
  cases he

end UsbDeviceConn
end Rusbmux
