import Rusbmux.MuxParser
import Rusbmux.UsbMux

/-! How packets for a device are built and written: `encode` and the builder of
src/parser/device_mux. -/
namespace Rusbmux

/-- A word of the wire, most significant byte first. -/
def be32 (w : UInt32) : Bytes :=
  [(w >>> 24).toUInt8, (w >>> 16).toUInt8, (w >>> 8).toUInt8, w.toUInt8]

def be16 (w : UInt16) : Bytes := [(w >>> 8).toUInt8, w.toUInt8]

theorem u32be_be32 (w : UInt32) : u32be (be32 w) = w := by
  apply UInt32.toNat_inj.mp
  have hw := w.toNat_lt
  simp only [u32be, be32, beNat, List.foldl_cons, List.foldl_nil, UInt32.toNat_ofNat',
    UInt32.toNat_toUInt8, UInt32.toNat_shiftRight, Nat.shiftRight_eq_div_pow,
    UInt32.reduceToNat, Nat.reduceMod, Nat.reducePow]
  omega

theorem u16be_be16 (w : UInt16) : u16be (be16 w) = w := by
  apply UInt16.toNat_inj.mp
  have hw := w.toNat_lt
  simp only [u16be, be16, beNat, List.foldl_cons, List.foldl_nil, UInt16.toNat_ofNat',
    UInt16.toNat_toUInt8, UInt16.toNat_shiftRight, Nat.shiftRight_eq_div_pow,
    UInt16.reduceToNat, Nat.reduceMod, Nat.reducePow]
  omega

/-- What the daemon uses of etherparse: also `TcpHeader::to_bytes`. -/
structure TcpWire extends TcpCodec where
  toBytes : TcpHeader → Bytes

/-- What etherparse documents: `to_bytes` writes `header_len` bytes, and
`from_slice` inverts it on headers without options. -/
structure TcpWire.Lawful (wire : TcpWire) : Prop where
  length_toBytes : ∀ h, (wire.toBytes h).length = h.headerLen
  fromSlice_toBytes : ∀ h rest, h.options = [] →
    wire.fromSlice (wire.toBytes h ++ rest) = .ok (h, rest)

def UsbDevicePacketHeaderV1.encode (h : UsbDevicePacketHeaderV1) : Bytes :=
  be32 h.protocol ++ be32 h.length

def UsbDevicePacketHeaderV2.encode (h : UsbDevicePacketHeaderV2) : Bytes :=
  be32 h.protocol ++ be32 h.length ++ be32 h.magic ++ be16 h.sendSeq ++ be16 h.recvSeq

def UsbDevicePacketHeader.encodeInto (buf : Bytes) : UsbDevicePacketHeader → Bytes
  | v1 h => buf ++ h.encode
  | v2 h => buf ++ h.encode

/-- `encode_into`, which is written apart from `encode`. -/
def UsbDevicePacketPayload.encodeInto (buf : Bytes) : UsbDevicePacketPayload → Bytes
  | bytes b => buf ++ b
  | version v => buf ++ v.encode
  | error none _ => buf
  | error (some e) none => buf ++ [e]
  | error (some e) (some m) => buf ++ [e] ++ m.toUTF8.data.toList

namespace UsbDevicePacket

variable (wire : TcpWire)

def encodeInto (buf : Bytes) (p : UsbDevicePacket) : Bytes :=
  let buf := p.header.encodeInto buf
  let buf := match p.tcpHdr with
    | some tcpHdr => buf ++ wire.toBytes tcpHdr
    | none => buf
  p.payload.encodeInto buf

def encode (p : UsbDevicePacket) : Bytes := p.encodeInto wire []

/-- The capacity that `encode` reserves. -/
def encodedLen (p : UsbDevicePacket) : ℕ :=
  p.header.size+(p.tcpHdr.map TcpHeader.headerLen).getD 0+p.payload.len

end UsbDevicePacket

/-- The arguments of `tcp_header`. -/
structure TcpHeaderArgs where
  sourcePort : UInt16
  destinationPort : UInt16
  sequenceNumber : UInt32
  acknowledgmentNumber : UInt32
  flags : TcpFlags
  deriving DecidableEq, Repr

def TcpHeaderArgs.header (args : TcpHeaderArgs) : TcpHeader :=
  tcpHeader args.sourcePort args.destinationPort args.sequenceNumber args.acknowledgmentNumber
    args.flags

/-- The states of the builder that have a `build`. -/
inductive UsbDevicePacketBuilder where
  | version (major minor : UInt32)
  | setup (sendSeq recvSeq : UInt16) (payload : Bytes)
  | tcp (sendSeq recvSeq : UInt16) (tcpHdr : TcpHeaderArgs)
  | tcpBytes (sendSeq recvSeq : UInt16) (tcpHdr : TcpHeaderArgs) (payload : Bytes)
  | tcpPlist (sendSeq recvSeq : UInt16) (tcpHdr : TcpHeaderArgs) (value : PlistValue)

def buildVersion (major minor : UInt32) : UsbDevicePacket where
  header := .v1 ⟨UsbDevicePacketProtocol.version.toU32,
    UInt32.ofNat (UsbDevicePacketHeaderV1.SIZE+UsbDevicePacketVersion.SIZE)⟩
  tcpHdr := none
  payload := .version ⟨major, minor, 0⟩

def buildSetup (sendSeq recvSeq : UInt16) (payload : Bytes) : UsbDevicePacket where
  header := .v2 (.new .setup (UsbDevicePacketHeaderV2.SIZE+payload.length) sendSeq recvSeq)
  tcpHdr := none
  payload := .bytes payload

/-- A plist on the wire, after its length and with a line feed at its end. -/
def plistPayload (xml : Bytes) : Bytes := be32 (UInt32.ofNat (xml ++ [10]).length) ++ xml ++ [10]

namespace UsbDevicePacketBuilder

-- `Value::to_writer_xml`
variable (toWriterXml : PlistValue → Bytes)

def build : UsbDevicePacketBuilder → UsbDevicePacket
  | version major minor => buildVersion major minor
  | setup sendSeq recvSeq payload => buildSetup sendSeq recvSeq payload
  | tcp sendSeq recvSeq tcpHdr => buildTcp sendSeq recvSeq tcpHdr.header
  | tcpBytes sendSeq recvSeq tcpHdr payload =>
    buildTcpBytes sendSeq recvSeq tcpHdr.header payload
  | tcpPlist sendSeq recvSeq tcpHdr value =>
    buildTcpBytes sendSeq recvSeq tcpHdr.header (plistPayload (toWriterXml value))

end UsbDevicePacketBuilder

end Rusbmux
