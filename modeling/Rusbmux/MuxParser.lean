import Rusbmux.MuxPacket
import Rusbmux.Errors
import Rusbmux.Utf8Lossy

/-! The two decoders of src/parser/device_mux/mod.rs. A decoder works on the
bytes left in its slice or stream; what it consumed before an error or a fault
stays consumed. -/
namespace Rusbmux

/-- A fault is a panic, or a conversion that Rust leaves undefined. -/
inductive Outcome (α : Type) where
  | ok (a : α)
  | err (e : ParseError)
  | fault
  deriving DecidableEq

def Parse (α : Type) : Type := Bytes → Outcome α × Bytes

namespace Parse

instance : Monad Parse where
  pure a := fun s => (.ok a, s)
  bind m f := fun s => match m s with
    | (.ok a, rest) => f a rest
    | (.err e, rest) => (.err e, rest)
    | (.fault, rest) => (.fault, rest)

def throw {α : Type} (e : ParseError) : Parse α := fun s => (.err e, s)

def fault {α : Type} : Parse α := fun s => (.fault, s)

/-- The bytes left. -/
def left : Parse Bytes := fun s => (.ok s, s)

/-- `&s[..n]` -/
def prefixOf (n : ℕ) : Parse Bytes := fun s =>
  if n ≤ s.length then (.ok (s.take n), s) else (.fault, s)

/-- `*s = &s[n..]` -/
def advance (n : ℕ) : Parse Unit := fun s =>
  if n ≤ s.length then (.ok (), s.drop n) else (.fault, s)

def setLeft (rest : Bytes) : Parse Unit := fun _ => (.ok (), rest)

/-- `reader.read_exact` into a buffer of `n` bytes, on a stream that ends. -/
def readExact (n : ℕ) : Parse Bytes := fun s =>
  if n ≤ s.length then (.ok (s.take n), s.drop n) else (.err (.io .unexpectedEof), [])

/-- `BytesMut::with_capacity` for `n` bytes, on a target whose largest allocation
is `maxAlloc`: `isize::MAX`, if there is that much memory. -/
def withCapacity (maxAlloc n : ℕ) : Parse Unit := fun s =>
  if n ≤ maxAlloc then (.ok (), s) else (.fault, s)

end Parse

/-- What the decoders use of etherparse: `TcpHeader::from_slice`, whose error
is given by the text it displays. -/
structure TcpCodec where
  fromSlice : Bytes → Except String (TcpHeader × Bytes)

/-- `UsbDevicePacketProtocol::new`. The text is a literal of the source, which
formats nothing into it. -/
def UsbDevicePacketProtocol.new (v : Bytes) : Parse UsbDevicePacketProtocol :=
  match tryFrom (u32be v) with
  | some p => pure p
  | none => Parse.throw (.invalidData "`\x7bvalue\x7d` is not a valid device mux protocol")

/-- `bytemuck::from_bytes` faults unless it gets exactly `SIZE` bytes. -/
def UsbDevicePacketVersion.decode (payload : Bytes) : Parse UsbDevicePacketVersion :=
  if payload.length = SIZE then pure (ofBytes payload) else Parse.fault

def UsbDevicePacketHeaderV1.decode (b : Bytes) : UsbDevicePacketHeaderV1 :=
  ⟨u32be (b.take 4), u32be ((b.drop 4).take 4)⟩

def UsbDevicePacketHeaderV2.decode (b : Bytes) : UsbDevicePacketHeaderV2 :=
  ⟨u32be (b.take 4), u32be ((b.drop 4).take 4), u32be ((b.drop 8).take 4),
    u16be ((b.drop 12).take 2), u16be ((b.drop 14).take 2)⟩

namespace UsbDevicePacketHeader

/-- `get_protocol` transmutes the protocol word, so an unknown word faults. -/
def getProtocol (h : UsbDevicePacketHeader) : Parse UsbDevicePacketProtocol :=
  let raw := match h with
    | v1 h => h.protocol
    | v2 h => h.protocol
  match UsbDevicePacketProtocol.tryFrom raw with
  | some p => pure p
  | none => Parse.fault

def fromSlice : Parse UsbDevicePacketHeader := do
  let s ← Parse.left
  if s.length < 4 then Parse.throw (.invalidData "slice too short for header")
  else do
    -- only these 4 bytes are known to be there
    let protocolBuff ← Parse.prefixOf 4
    let protocol ← UsbDevicePacketProtocol.new protocolBuff
    match protocol with
    | .version => do
      let h ← Parse.prefixOf UsbDevicePacketHeaderV1.SIZE
      Parse.advance UsbDevicePacketHeaderV1.SIZE
      pure (v1 (.decode h))
    | .tcp | .setup | .control => do
      let h ← Parse.prefixOf UsbDevicePacketHeaderV2.SIZE
      Parse.advance UsbDevicePacketHeaderV2.SIZE
      pure (v2 (.decode h))

/-- The two headers share their first bytes, so 8 are read before the protocol
is known. -/
def fromReader : Parse UsbDevicePacketHeader := do
  let headerBuff ← Parse.readExact UsbDevicePacketHeaderV1.SIZE
  let protocol ← UsbDevicePacketProtocol.new (headerBuff.take 4)
  match protocol with
  | .version => pure (v1 (.decode headerBuff))
  | .tcp | .setup | .control => do
    let more ← Parse.readExact (UsbDevicePacketHeaderV2.SIZE-UsbDevicePacketHeaderV1.SIZE)
    pure (v2 (.decode (headerBuff ++ more)))

end UsbDevicePacketHeader

def UsbDevicePacketPayload.decode (payload : Bytes) (protocol : UsbDevicePacketProtocol) :
    Parse UsbDevicePacketPayload :=
  match protocol with
  | .version => do
    let v ← UsbDevicePacketVersion.decode payload
    pure (.version v)
  | .control => match payload with
    | [] => pure (.error none none)
    | [e] => pure (.error (some e) none)
    | e :: message => pure (.error (some e) (some (Utf8Lossy.decode message)))
  | .setup | .tcp => pure (.bytes payload)

namespace UsbDevicePacket

variable (codec : TcpCodec)

/-- The TCP header of `from_slice`, parsed from all the bytes left. -/
def tcpFromSlice (header : UsbDevicePacketHeader) (protocol : UsbDevicePacketProtocol) :
    Parse (Option TcpHeader) := do
  if protocol = .tcp ∧ header.isV2 then do
    let s ← Parse.left
    match codec.fromSlice s with
    | .ok (h, rest) => do
      Parse.setLeft rest
      pure (some h)
    | .error e => Parse.throw (.invalidData s!"failed to parse TCP header from slice: {e}")
  else pure none

/-- The TCP header of `from_reader`, parsed from the next 20 bytes. -/
def tcpFromReader (protocol : UsbDevicePacketProtocol) : Parse (Option TcpHeader) := do
  if protocol = .tcp then do
    let tcpHdrBuff ← Parse.readExact TcpHeader.MIN_LEN
    match codec.fromSlice tcpHdrBuff with
    | .ok (h, _) => pure (some h)
    | .error e => Parse.throw (.tcpHeaderSlice e)
  else pure none

def totalHeaderLen (header : UsbDevicePacketHeader) (tcpHdr : Option TcpHeader) : ℕ :=
  header.size+(tcpHdr.map TcpHeader.headerLen).getD 0

def lengthError (totalLength totalHeaderLen : ℕ) : ParseError :=
  .invalidData s!"packet length {totalLength} is less than header size {totalHeaderLen}"

def fromSlice : Parse UsbDevicePacket := do
  let orig ← Parse.left
  let header ← UsbDevicePacketHeader.fromSlice
  let protocol ← header.getProtocol
  let s ← Parse.left
  -- the bytes of the header, without those of the TCP header
  let consumed := orig.length-s.length
  let tcpHdr ← tcpFromSlice codec header protocol
  let headerLen := totalHeaderLen header tcpHdr
  let totalLength := header.getLength.toNat
  if totalLength < headerLen then Parse.throw (lengthError totalLength headerLen)
  else do
    let payloadLen := totalLength-headerLen
    let s ← Parse.left
    if s.length < payloadLen then
      let available := s.length+consumed
      Parse.throw (.invalidData
        s!"packet length {totalLength} exceeds remaining slice length {available}")
    else do
      let payload ← Parse.prefixOf payloadLen
      Parse.advance payloadLen
      let payload ← UsbDevicePacketPayload.decode payload protocol
      pure ⟨header, tcpHdr, payload⟩

def fromReaderWithin (maxAlloc : ℕ) : Parse UsbDevicePacket := do
  let header ← UsbDevicePacketHeader.fromReader
  let protocol ← header.getProtocol
  let tcpHdr ← tcpFromReader codec protocol
  let headerLen := totalHeaderLen header tcpHdr
  let totalLength := header.getLength.toNat
  if totalLength < headerLen then Parse.throw (lengthError totalLength headerLen)
  else do
    let payloadLen := totalLength-headerLen
    -- by the length word alone, before any byte of the payload is there
    Parse.withCapacity maxAlloc payloadLen
    let payload ← Parse.readExact payloadLen
    let payload ← UsbDevicePacketPayload.decode payload protocol
    pure ⟨header, tcpHdr, payload⟩

/-- `from_reader` on a target that can allocate what every length word announces,
as one of 64 bits can. -/
def fromReader : Parse UsbDevicePacket := do
  let header ← UsbDevicePacketHeader.fromReader
  let protocol ← header.getProtocol
  let tcpHdr ← tcpFromReader codec protocol
  let headerLen := totalHeaderLen header tcpHdr
  let totalLength := header.getLength.toNat
  if totalLength < headerLen then Parse.throw (lengthError totalLength headerLen)
  else do
    -- a stream that ends early fails the read instead
    let payload ← Parse.readExact (totalLength-headerLen)
    let payload ← UsbDevicePacketPayload.decode payload protocol
    pure ⟨header, tcpHdr, payload⟩

end UsbDevicePacket

end Rusbmux
