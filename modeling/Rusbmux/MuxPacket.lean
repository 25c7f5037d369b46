import Mathlib.Data.List.Basic

/-! The packets exchanged with a device: src/parser/device_mux, with the parts
of `etherparse::TcpHeader` that the daemon reads and writes. -/
namespace Rusbmux

abbrev Bytes := List UInt8

/-- A word of the wire, most significant byte first. -/
def beNat (b : Bytes) : ℕ := b.foldl (fun n x => n*256+x.toNat) 0

def u32be (b : Bytes) : UInt32 := UInt32.ofNat (beNat b)

def u16be (b : Bytes) : UInt16 := UInt16.ofNat (beNat b)

inductive UsbDevicePacketProtocol where
  | version
  | control
  | setup
  | tcp
  deriving DecidableEq, Repr

namespace UsbDevicePacketProtocol

def toU32 : UsbDevicePacketProtocol → UInt32
  | version => 0
  | control => 1
  | setup => 2
  | tcp => 6

def tryFrom (value : UInt32) : Option UsbDevicePacketProtocol :=
  if value = 0 then some version
  else if value = 1 then some control
  else if value = 2 then some setup
  else if value = 6 then some tcp
  else none

theorem tryFrom_eq_some_iff (value : UInt32) (p : UsbDevicePacketProtocol) :
    tryFrom value = some p ↔ value = p.toU32 := by
  unfold tryFrom toU32
  constructor
  · intro h
    split_ifs at h <;> cases h <;> assumption
  · rintro rfl
    cases p <;> rfl

end UsbDevicePacketProtocol

structure UsbDevicePacketHeaderV1 where
  protocol : UInt32
  length : UInt32
  deriving DecidableEq, Repr

def UsbDevicePacketHeaderV1.SIZE : ℕ := 8

structure UsbDevicePacketHeaderV2 where
  protocol : UInt32
  length : UInt32
  magic : UInt32
  /-- the nth packet sent to the device -/
  sendSeq : UInt16
  /-- the nth packet received from the device -/
  recvSeq : UInt16
  deriving DecidableEq, Repr

def UsbDevicePacketHeaderV2.SIZE : ℕ := 16

def DEVICE_MUX_HEADER_V2_MAGIC : UInt32 := 0xfeedface

/-- `length` is a usize, cut to 32 bits when the header is built. -/
def UsbDevicePacketHeaderV2.new (protocol : UsbDevicePacketProtocol) (length : ℕ)
    (sendSeq recvSeq : UInt16) : UsbDevicePacketHeaderV2 :=
  ⟨protocol.toU32, UInt32.ofNat length, DEVICE_MUX_HEADER_V2_MAGIC, sendSeq, recvSeq⟩

inductive UsbDevicePacketHeader where
  | v1 (h : UsbDevicePacketHeaderV1)
  | v2 (h : UsbDevicePacketHeaderV2)
  deriving DecidableEq, Repr

namespace UsbDevicePacketHeader

def size : UsbDevicePacketHeader → ℕ
  | v1 _ => UsbDevicePacketHeaderV1.SIZE
  | v2 _ => UsbDevicePacketHeaderV2.SIZE

def getLength : UsbDevicePacketHeader → UInt32
  | v1 h => h.length
  | v2 h => h.length

def isV2 : UsbDevicePacketHeader → Bool
  | v1 _ => false
  | v2 _ => true

end UsbDevicePacketHeader

/-- `etherparse::TcpHeader`. -/
structure TcpHeader where
  sourcePort : UInt16
  destinationPort : UInt16
  sequenceNumber : UInt32
  acknowledgmentNumber : UInt32
  ns : Bool
  fin : Bool
  syn : Bool
  rst : Bool
  psh : Bool
  ack : Bool
  urg : Bool
  ece : Bool
  cwr : Bool
  windowSize : UInt16
  checksum : UInt16
  urgentPointer : UInt16
  options : Bytes
  deriving DecidableEq, Repr

namespace TcpHeader

def MIN_LEN : ℕ := 20

def headerLen (h : TcpHeader) : ℕ := MIN_LEN+h.options.length

def new (sourcePort destinationPort : UInt16) (sequenceNumber : UInt32)
    (windowSize : UInt16) : TcpHeader where
  sourcePort := sourcePort
  destinationPort := destinationPort
  sequenceNumber := sequenceNumber
  acknowledgmentNumber := 0
  ns := false
  fin := false
  syn := false
  rst := false
  psh := false
  ack := false
  urg := false
  ece := false
  cwr := false
  windowSize := windowSize
  checksum := 0
  urgentPointer := 0
  options := []

end TcpHeader

structure UsbDevicePacketVersion where
  major : UInt32
  minor : UInt32
  padding : UInt32
  deriving DecidableEq, Repr

namespace UsbDevicePacketVersion

def SIZE : ℕ := 12

/-- `bytemuck::from_bytes` on a slice of exactly `SIZE` bytes. -/
def ofBytes (b : Bytes) : UsbDevicePacketVersion :=
  ⟨u32be (b.take 4), u32be ((b.drop 4).take 4), u32be ((b.drop 8).take 4)⟩

def encode (v : UsbDevicePacketVersion) : Bytes :=
  [v.major, v.minor, v.padding].flatMap fun (w : UInt32) =>
    [(w >>> 24).toUInt8, (w >>> 16).toUInt8, (w >>> 8).toUInt8, w.toUInt8]

end UsbDevicePacketVersion

inductive UsbDevicePacketPayload where
  | bytes (b : Bytes)
  | version (v : UsbDevicePacketVersion)
  | error (errorCode : Option UInt8) (message : Option String)
  deriving DecidableEq

namespace UsbDevicePacketPayload

def len : UsbDevicePacketPayload → ℕ
  | bytes b => b.length
  | version _ => UsbDevicePacketVersion.SIZE
  | error (some _) (some m) => m.utf8ByteSize+1
  | error (some _) none => 1
  | error none _ => 0

def encode : UsbDevicePacketPayload → Bytes
  | bytes b => b
  | version v => v.encode
  | error none _ => []
  | error (some e) none => [e]
  | error (some e) (some m) => e :: m.toUTF8.data.toList

end UsbDevicePacketPayload

structure UsbDevicePacket where
  header : UsbDevicePacketHeader
  tcpHdr : Option TcpHeader
  payload : UsbDevicePacketPayload
  deriving DecidableEq

def UsbDevicePacket.HEADERS_LEN_V2 : ℕ := UsbDevicePacketHeaderV2.SIZE+TcpHeader.MIN_LEN

/-- The bits of `TcpFlags` in src/parser/device_mux/builder.rs. -/
structure TcpFlags where
  bits : UInt8
  deriving DecidableEq, Repr

namespace TcpFlags

def ACK : TcpFlags := ⟨1⟩

def SYN : TcpFlags := ⟨2⟩

def RST : TcpFlags := ⟨4⟩

def contains (f g : TcpFlags) : Bool := f.bits &&& g.bits == g.bits

end TcpFlags

/-- `UsbDeviceConn::WINDOW_SIZE`: 128 KiB, shifted right by 8. -/
def WINDOW_SIZE : UInt16 := 512

/-- `UsbDevicePacketBuilder::tcp_header`. -/
def tcpHeader (sourcePort destinationPort : UInt16)
    (sequenceNumber acknowledgmentNumber : UInt32) (flags : TcpFlags) : TcpHeader :=
  { TcpHeader.new sourcePort destinationPort sequenceNumber WINDOW_SIZE with
    ack := flags.contains .ACK
    syn := flags.contains .SYN
    rst := flags.contains .RST
    acknowledgmentNumber := acknowledgmentNumber }

/-- `build` of a packet with a TCP header and no payload. -/
def buildTcp (sendSeq recvSeq : UInt16) (tcpHdr : TcpHeader) : UsbDevicePacket :=
  ⟨.v2 (.new .tcp UsbDevicePacket.HEADERS_LEN_V2 sendSeq recvSeq), some tcpHdr, .bytes []⟩

/-- `build` of a packet with a TCP header and payload bytes. -/
def buildTcpBytes (sendSeq recvSeq : UInt16) (tcpHdr : TcpHeader) (payload : Bytes) :
    UsbDevicePacket :=
  ⟨.v2 (.new .tcp (UsbDevicePacket.HEADERS_LEN_V2+payload.length) sendSeq recvSeq),
    some tcpHdr, .bytes payload⟩

/-- src/usb_backend/mod.rs -/
def MAX_PACKET_SIZE : ℕ := 48*1024

def MAX_PACKET_PAYLOAD_SIZE : ℕ := MAX_PACKET_SIZE-UsbDevicePacket.HEADERS_LEN_V2

end Rusbmux
