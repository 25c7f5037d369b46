import Rusbmux.MuxPacket

/-! The packets exchanged with a client: src/parser/usbmux.rs, and the results
of src/handler/mod.rs. -/
namespace Rusbmux

/-- The kinds of `plist::Value` that the handlers build. -/
inductive PlistValue where
  | string (s : String)
  | integer (n : ℕ)
  | boolean (b : Bool)
  | data (b : Bytes)
  | array (values : List PlistValue)
  | dictionary (entries : List (String × PlistValue))

/-- `plist_macro::plist_value_to_xml_bytes` and `plist::from_bytes`, whose error
is given by the text it displays. -/
structure PlistXml where
  toXml : PlistValue → Bytes
  fromBytes : Bytes → Except String PlistValue

def ascii (text : String) : Bytes := text.toList.map fun c => UInt8.ofNat c.toNat

/-- The 64 characters of base64, as bytes. -/
def base64Alphabet : Bytes :=
  ascii "ABCDEFGHIJKLMNOPQRSTUVWXYZabcdefghijklmnopqrstuvwxyz0123456789+/"

def base64Char (n : ℕ) : UInt8 := base64Alphabet.getD (n % 64) 0

def base64 : Bytes → Bytes
  | [] => []
  | [a] => [base64Char (a.toNat/4), base64Char (a.toNat*16), 61, 61]
  | [a, b] => [base64Char (a.toNat/4), base64Char (a.toNat*16+b.toNat/16),
      base64Char (b.toNat*4), 61]
  | a :: b :: c :: rest =>
    base64Char (a.toNat/4) :: base64Char (a.toNat*16+b.toNat/16) ::
      base64Char (b.toNat*4+c.toNat/64) :: base64Char c.toNat :: base64 rest

/-- Lines of 68 characters, each after `indent`; `fuel` bounds their number. -/
def base64Lines (indent : Bytes) : ℕ → Bytes → Bytes
  | 0, _ => []
  | _, [] => []
  | fuel+1, text => indent ++ text.take 68 ++ [10] ++ base64Lines indent fuel (text.drop 68)

def dataElement (indent : Bytes) (b : Bytes) : Bytes :=
  indent ++ ascii "<data>\n" ++ base64Lines indent (b.length+1) (base64 b) ++
    indent ++ ascii "</data>\n"

/-- A value in the layout of the plist crate, for collections that are not nested. -/
def element (indent : Bytes) : PlistValue → Bytes
  | .string text => indent ++ ascii "<string>" ++ ascii text ++ ascii "</string>\n"
  | .integer n => indent ++ ascii "<integer>" ++ ascii (toString n) ++ ascii "</integer>\n"
  | .boolean b => indent ++ (if b then ascii "<true/>\n" else ascii "<false/>\n")
  | .data b => dataElement indent b
  | .array _ | .dictionary _ => []

def plistDocument (content : Bytes) : Bytes :=
  ascii "<?xml version=\"1.0\" encoding=\"UTF-8\"?>\n" ++
    ascii "<!DOCTYPE plist PUBLIC \"-//Apple//DTD PLIST 1.0//EN\" " ++
    ascii "\"http://www.apple.com/DTDs/PropertyList-1.0.dtd\">\n" ++
    ascii "<plist version=\"1.0\">\n" ++ content ++ ascii "</plist>"

def writeXml : PlistValue → Bytes
  | .dictionary entries => plistDocument
      (ascii "<dict>\n" ++ entries.flatMap (fun (key, value) =>
        ascii "\t<key>" ++ ascii key ++ ascii "</key>\n" ++ element [9] value) ++
      ascii "</dict>\n")
  | value => plistDocument (element [] value)

/-- Writes XML as the plist crate does, and reads back the document of one value. -/
def plistCodec (value : PlistValue) : PlistXml where
  toXml := writeXml
  fromBytes := fun b =>
    if b = writeXml value then .ok value else .error "unexpected end of event stream"

theorem plistCodec_reads (value : PlistValue) :
    (plistCodec value).fromBytes ((plistCodec value).toXml value) = .ok value := if_pos rfl

inductive UsbMuxVersion where
  | binary
  | plist
  deriving DecidableEq, Repr

def UsbMuxVersion.toU32 : UsbMuxVersion → UInt32
  | binary => 0
  | plist => 1

inductive UsbMuxMsgType where
  | result
  | connect
  | listen
  | deviceAdd
  | deviceRemove
  | devicePaired
  | messagePlist
  deriving DecidableEq, Repr

def UsbMuxMsgType.toU32 : UsbMuxMsgType → UInt32
  | result => 1
  | connect => 2
  | listen => 3
  | deviceAdd => 4
  | deviceRemove => 5
  | devicePaired => 6
  | messagePlist => 8

structure UsbMuxHeader where
  len : UInt32
  version : UsbMuxVersion
  msgType : UsbMuxMsgType
  tag : UInt32
  deriving DecidableEq, Repr

/-- `bytemuck::cast` of a word, on a little-endian machine. -/
def u32le (w : UInt32) : Bytes :=
  [w.toUInt8, (w >>> 8).toUInt8, (w >>> 16).toUInt8, (w >>> 24).toUInt8]

namespace UsbMuxHeader

def SIZE : ℕ := 16

def encode (h : UsbMuxHeader) : Bytes :=
  u32le h.len ++ u32le h.version.toU32 ++ u32le h.msgType.toU32 ++ u32le h.tag

theorem length_encode (h : UsbMuxHeader) : h.encode.length = SIZE := rfl

end UsbMuxHeader

/-- `UsbMuxPacket::encode_from`: the length is cut to 32 bits. -/
def encodeFrom (payload : Bytes) (version : UsbMuxVersion) (msgType : UsbMuxMsgType)
    (tag : UInt32) : Bytes :=
  UsbMuxHeader.encode ⟨UInt32.ofNat (payload.length+UsbMuxHeader.SIZE), version, msgType, tag⟩ ++
    payload

/-- What every handler sends: a plist message. -/
def plistMessage (xml : PlistXml) (value : PlistValue) (tag : UInt32) : Bytes :=
  encodeFrom (xml.toXml value) .plist .messagePlist tag

/-- The payload of a packet is what follows its header. -/
theorem plistMessage_payload (xml : PlistXml) (value : PlistValue) (tag : UInt32) :
    (plistMessage xml value tag).drop UsbMuxHeader.SIZE = xml.toXml value :=
  List.drop_left' (UsbMuxHeader.length_encode _)

inductive ResultCode where
  | ok
  | badCommand
  | badDeviceOrNoSuchFile
  | connectionRefused
  | badVersion
  | invalidInput
  deriving DecidableEq, Repr

def ResultCode.toU16 : ResultCode → UInt16
  | ok => 0
  | badCommand => 1
  | badDeviceOrNoSuchFile => 2
  | connectionRefused => 3
  | badVersion => 6
  | invalidInput => 22

/-- The value of a result. -/
def resultValue (code : ResultCode) : PlistValue :=
  .dictionary [("MessageType", .string "Result"), ("Number", .integer code.toU16.toNat)]

/-- The packet that `send_result` writes. -/
def resultPacket (xml : PlistXml) (code : ResultCode) (tag : UInt32) : Bytes :=
  plistMessage xml (resultValue code) tag

end Rusbmux
