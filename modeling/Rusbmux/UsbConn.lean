import Rusbmux.MuxPacket
import Rusbmux.Errors

/-! The counters of a connection: src/conn/usb.rs. A method that waits on a
channel is given as the state changes before and after the wait. -/
namespace Rusbmux

structure UsbDeviceConn where
  sentBytes : UInt32
  receivedBytes : UInt32
  sourcePort : UInt16
  destinationPort : UInt16
  sendableBytes : ℕ
  deviceLastWindowSize : UInt16
  deviceLastReceivedBytes : UInt32
  dropped : Bool
  deriving DecidableEq, Repr

/-- A place holder, rewritten by the writer loop. -/
def AUTO_SEQ : UInt16 := 0

namespace UsbDeviceConn

/-- The window in bytes: the device shifts it right, so it is put back. -/
def windowBytes (deviceWindowSize : UInt16) : UInt32 := deviceWindowSize.toUInt32 <<< 8

/-- `u32::saturating_sub` -/
def saturatingSub (a b : UInt32) : UInt32 := if b ≤ a then a-b else 0

def calcSendableBytes (sentBytes : UInt32) (deviceWindowSize : UInt16)
    (deviceReceivedBytes : UInt32) : ℕ :=
  let deviceWindowSize := windowBytes deviceWindowSize
  let unackedBytes := saturatingSub sentBytes deviceReceivedBytes
  if deviceWindowSize > unackedBytes then
    min (deviceWindowSize-unackedBytes).toNat MAX_PACKET_PAYLOAD_SIZE
  else 0

def newFrom (destinationPort sourcePort : UInt16) (sentBytes receivedBytes : UInt32)
    (deviceLastWindowSize : UInt16) (deviceLastReceivedBytes : UInt32) : UsbDeviceConn where
  sentBytes := sentBytes
  receivedBytes := receivedBytes
  sourcePort := sourcePort
  destinationPort := destinationPort
  sendableBytes := calcSendableBytes sentBytes deviceLastWindowSize deviceLastReceivedBytes
  deviceLastWindowSize := deviceLastWindowSize
  deviceLastReceivedBytes := deviceLastReceivedBytes
  dropped := false

/-- The first packet of `new`. -/
def tcpSyn (sourcePort destinationPort : UInt16) : UsbDevicePacket :=
  buildTcp AUTO_SEQ AUTO_SEQ (tcpHeader sourcePort destinationPort 0 0 .SYN)

/-- `new`, from the reply to the SYN on: the ACK it sends and the connection. -/
def new (sourcePort destinationPort : UInt16) (tcpSynAck : UsbDevicePacket) :
    Except RusbmuxError (UsbDevicePacket × UsbDeviceConn) :=
  match tcpSynAck.tcpHdr with
  | none => .error (.unexpectedPacket "Expected a packet with a tcp header")
  | some tcpSynAckTcpHdr =>
    let sentBytes := tcpSynAckTcpHdr.acknowledgmentNumber
    let receivedBytes := tcpSynAckTcpHdr.sequenceNumber
    let tcpAck := buildTcp AUTO_SEQ AUTO_SEQ
      (tcpHeader sourcePort destinationPort sentBytes receivedBytes .ACK)
    .ok (tcpAck, newFrom destinationPort sourcePort sentBytes receivedBytes
      tcpSynAckTcpHdr.windowSize tcpSynAckTcpHdr.acknowledgmentNumber)

variable (conn : UsbDeviceConn)

/-- The TCP header of every packet the connection builds. -/
def header (flags : TcpFlags) : TcpHeader :=
  tcpHeader conn.sourcePort conn.destinationPort conn.sentBytes conn.receivedBytes flags

/-- The packet that `ack` sends. -/
def tcpAck : UsbDevicePacket := buildTcp AUTO_SEQ AUTO_SEQ (conn.header .ACK)

/-- The packet that `send_rst` sends. -/
def rstPacket : UsbDevicePacket := buildTcp AUTO_SEQ AUTO_SEQ (conn.header .RST)

/-- The packet that `send_bytes` sends. -/
def bytesPacket (value : Bytes) : UsbDevicePacket :=
  buildTcpBytes AUTO_SEQ AUTO_SEQ (conn.header .ACK) value

def updateSendableBytes : UsbDeviceConn :=
  { conn with
    sendableBytes := calcSendableBytes conn.sentBytes conn.deviceLastWindowSize
      conn.deviceLastReceivedBytes }

/-- `send_packet`, once the writer channel has taken the packet. -/
def packetSent (packet : UsbDevicePacket) : UsbDeviceConn :=
  let payloadLen := UInt32.ofNat packet.payload.len
  updateSendableBytes { conn with sentBytes := conn.sentBytes+payloadLen }

/-- `recv`, once a packet is taken from the queue and before the ACK is sent. -/
def recvTake (response : UsbDevicePacket) : UsbDeviceConn :=
  let recvBytes := UInt32.ofNat response.payload.len
  match response.tcpHdr with
  | none => { conn with receivedBytes := recvBytes }
  | some h =>
    { conn with
      receivedBytes := h.sequenceNumber
      deviceLastReceivedBytes := h.acknowledgmentNumber
      deviceLastWindowSize := h.windowSize }

/-- `recv` on a queued packet, with room for the ACK it enqueues. -/
def recv (response : UsbDevicePacket) : UsbDeviceConn × UsbDevicePacket :=
  let taken := conn.recvTake response
  (taken.updateSendableBytes, taken.tcpAck)

/-- `recv` on packet after packet, with the ACKs in the order they are enqueued. -/
def recvAll : UsbDeviceConn → List UsbDevicePacket → UsbDeviceConn × List UsbDevicePacket
  | conn, [] => (conn, [])
  | conn, p :: ps =>
    let (conn, ack) := conn.recv p
    let (conn, acks) := recvAll conn ps
    (conn, ack :: acks)

end UsbDeviceConn

end Rusbmux
