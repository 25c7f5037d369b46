import Rusbmux.UsbMux
import Rusbmux.MuxParser

/-! How the daemon reads a client's packet: src/parser/usbmux.rs. -/
namespace Rusbmux

/-- A word of a client's packet, least significant byte first. -/
def u32fromLe (b : Bytes) : UInt32 :=
  UInt32.ofNat (b.foldr (fun x n => n*256+x.toNat) 0)

namespace UsbMuxVersion

def ofU32 (value : UInt32) : Option UsbMuxVersion :=
  if value = 0 then some binary
  else if value = 1 then some plist
  else none

def tryFrom (value : UInt32) : Parse UsbMuxVersion :=
  match ofU32 value with
  | some version => pure version
  | none => Parse.throw (.invalidData s!"`{value}` is not a valid usbmux packet version")

end UsbMuxVersion

namespace UsbMuxMsgType

def ofU32 (value : UInt32) : Option UsbMuxMsgType :=
  if value = 1 then some result
  else if value = 2 then some connect
  else if value = 3 then some listen
  else if value = 4 then some deviceAdd
  else if value = 5 then some deviceRemove
  else if value = 6 then some devicePaired
  else if value = 8 then some messagePlist
  else none

def tryFrom (value : UInt32) : Parse UsbMuxMsgType :=
  match ofU32 value with
  | some msgType => pure msgType
  | none => Parse.throw (.invalidData s!"`{value}` is not a valid usbmux message type")

end UsbMuxMsgType

/-- `RawUsbMuxHeader`, as it is read on a little-endian machine. -/
structure RawUsbMuxHeader where
  len : UInt32
  version : UInt32
  msgType : UInt32
  tag : UInt32
  deriving DecidableEq, Repr

def RawUsbMuxHeader.ofBytes (buf : Bytes) : RawUsbMuxHeader where
  len := u32fromLe (buf.take 4)
  version := u32fromLe ((buf.drop 4).take 4)
  msgType := u32fromLe ((buf.drop 8).take 4)
  tag := u32fromLe ((buf.drop 12).take 4)

def UsbMuxHeader.fromReader : Parse UsbMuxHeader := do
  let buf ← Parse.readExact SIZE
  let raw := RawUsbMuxHeader.ofBytes buf
  let version ← UsbMuxVersion.tryFrom raw.version
  let msgType ← UsbMuxMsgType.tryFrom raw.msgType
  pure ⟨raw.len, version, msgType, raw.tag⟩

inductive UsbMuxPayload where
  | plist (value : PlistValue)
  | raw (bytes : Bytes)

namespace UsbMuxPayload

def asPlist : UsbMuxPayload → Option PlistValue
  | plist value => some value
  | raw _ => none

/-- A payload in plist mode is parsed for every message type. -/
def decode (xml : PlistXml) (version : UsbMuxVersion) (payload : Bytes) :
    Parse UsbMuxPayload :=
  match version with
  | .plist => match xml.fromBytes payload with
    | .ok value => pure (plist value)
    | .error e => Parse.throw (.plist e)
  | .binary => pure (raw payload)

end UsbMuxPayload

structure UsbMuxPacket where
  header : UsbMuxHeader
  payload : UsbMuxPayload

def UsbMuxHeader.shortError (len : UInt32) : ParseError :=
  let size := UsbMuxHeader.SIZE
  .invalidData s!"payload is shorter than the header, header length: {size}, payload length: {len}"

def UsbMuxPacket.fromReader (xml : PlistXml) : Parse UsbMuxPacket := do
  let header ← UsbMuxHeader.fromReader
  if header.len.toNat < UsbMuxHeader.SIZE then
    Parse.throw (UsbMuxHeader.shortError header.len)
  else do
    -- the vector of zeros the source allocates here is within isize::MAX where isize has 64 bits
    let payload ← Parse.readExact (header.len.toNat-UsbMuxHeader.SIZE)
    let payload ← UsbMuxPayload.decode xml header.version payload
    pure ⟨header, payload⟩

end Rusbmux
