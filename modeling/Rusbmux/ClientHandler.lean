import Rusbmux.PairRecord
import Rusbmux.UsbMuxParser
import Rusbmux.Registry

/-! The requests of a client and what the daemon does with them: `handle_client`
and `handle_message` of src/handler/mod.rs with the handlers they call. -/
namespace Rusbmux

inductive PayloadMessageType where
  | listen
  | listDevices
  | listListeners
  | readBUID
  | readPairRecord
  | savePairRecord
  | deletePairRecord
  | connect
  deriving DecidableEq, Repr

/-- A request with the fields that its handler reads. -/
inductive UsbMuxRequest where
  | listen
  | listDevices
  | listListeners
  | readBUID
  | readPairRecord (pairRecordId : String)
  | savePairRecord (pairRecordId : String) (pairRecordData : Bytes) (deviceId : Option UInt64)
  | deletePairRecord (pairRecordId : String)
  | connect (deviceId : UInt64) (port : UInt16)
  deriving DecidableEq, Repr

/-- What `create_device_attached` reads of a device. The address is that of the
platform, in 128 bytes. -/
inductive AttachedDevice where
  | usb (id speed : UInt64) (locationId : UInt32) (productId : UInt16)
    (serialNumber : Option String)
  | network (id : UInt64) (serviceName : String) (scopeId : Option UInt32)
    (networkAddress : Bytes) (serialNumber : String)

namespace AttachedDevice

def id : AttachedDevice → UInt64
  | usb id _ _ _ _ => id
  | network id _ _ _ _ => id

def serialNumber : AttachedDevice → String
  | usb _ _ _ _ serialNumber => serialNumber.getD ""
  | network _ _ _ _ serialNumber => serialNumber

def createDeviceAttached : AttachedDevice → PlistValue
  | usb id speed locationId productId serialNumber => .dictionary [
      ("DeviceID", .integer id.toNat),
      ("MessageType", .string "Attached"),
      ("Properties", .dictionary [
        ("ConnectionSpeed", .integer speed.toNat),
        ("ConnectionType", .string "USB"),
        ("DeviceID", .integer id.toNat),
        ("LocationID", .integer locationId.toNat),
        ("ProductID", .integer productId.toNat),
        ("SerialNumber", .string (serialNumber.getD ""))])]
  | network id serviceName scopeId networkAddress serialNumber => .dictionary [
      ("DeviceID", .integer id.toNat),
      ("MessageType", .string "Attached"),
      ("Properties", .dictionary [
        ("ConnectionType", .string "Network"),
        ("DeviceID", .integer id.toNat),
        ("EscapedFullServiceName", .string serviceName),
        ("InterfaceIndex", .integer (scopeId.getD 0).toNat),
        ("NetworkAddress", .data networkAddress),
        ("SerialNumber", .string serialNumber)])]

/-- The filter of the device list: a network device gives way to any other
device with its serial number. -/
def shownAmong (devices : List AttachedDevice) : AttachedDevice → Bool
  | usb _ _ _ _ _ => true
  | network id _ _ _ serialNumber =>
    !devices.any fun d => d.serialNumber == serialNumber && d.id != id

end AttachedDevice

/-- What the outside answers while one request is handled. `faults` are those of
the pair records' files and of the writes to the client. -/
structure Outcomes where
  faults : IoFaults
  /-- `Path::exists` cannot tell, and says no. -/
  existsFails : Bool
  writeConfig : Option IoErrorKind
  /-- The error of opening or reading the system configuration. -/
  readConfig : Option String
  uuid : String
  /-- The receivers of `HOTPLUG_EVENT_TX`, if it is set. -/
  hotplugTx : Option ℕ
  devices : List AttachedDevice
  /-- The events until the receiver fails, each with the device then in the map. -/
  events : List (DeviceEvent × Option AttachedDevice)
  connect : Except RusbmuxError Unit
  /-- How the relay of a connection ends. -/
  relay : Except RusbmuxError Unit

/-- `PlistXml` with what the daemon uses of serde: `plist::from_value`, whose
error is given by the text it displays. -/
structure HandlerHost extends PairRecordHost where
  fromValue : PlistValue → Except String UsbMuxRequest

section

variable (host : HandlerHost) (outcomes : Outcomes)

def sendPlist (value : PlistValue) (tag : UInt32) : Handler Unit :=
  writeAll outcomes.faults (plistMessage host.xml value tag)

def devicesPlist : PlistValue :=
  let devices := outcomes.devices.filter (AttachedDevice.shownAmong outcomes.devices)
  .dictionary [("DeviceList", .array (devices.map AttachedDevice.createDeviceAttached))]

def handleDeviceList (tag : UInt32) : Handler Unit :=
  sendPlist host outcomes (devicesPlist outcomes) tag

def listenerPlist : PlistValue :=
  .dictionary [("Blacklisted", .boolean false), ("ConnType", .integer 0),
    ("ID String", .string "unknown"), ("ProgName", .string "unknown")]

def handleListenersList (tag : UInt32) : Handler Unit :=
  match outcomes.hotplugTx with
  | none => Handler.throw .hotPlugNotSupported
  | some receivers => sendPlist host outcomes
      (.dictionary [("ListenerList", .array (List.replicate receivers listenerPlist))]) tag

def sendAttached (tag : UInt32) (device : AttachedDevice) : Handler Unit :=
  sendPlist host outcomes device.createDeviceAttached tag

def sendCurrentlyConnected (tag : UInt32) : Handler Unit :=
  (outcomes.devices.filter (AttachedDevice.shownAmong outcomes.devices)).forM
    (sendAttached host outcomes tag)

def sendEvent (tag : UInt32) : DeviceEvent × Option AttachedDevice → Handler Unit
  | (.attached _, some device) => sendAttached host outcomes tag device
  -- the device disappeared before the event could be processed
  | (.attached _, none) => pure ()
  | (.detached id, _) => sendPlist host outcomes
      (.dictionary [("MessageType", .string "Detached"), ("DeviceID", .integer id)]) tag

def handleListen (tag : UInt32) : Handler Unit :=
  match outcomes.hotplugTx with
  | none => do
    sendResult host.toPairRecordHost outcomes.faults .badDeviceOrNoSuchFile tag
    Handler.throw .hotPlugNotSupported
  | some _ => do
    sendResult host.toPairRecordHost outcomes.faults .ok tag
    sendCurrentlyConnected host outcomes tag
    outcomes.events.forM (sendEvent host outcomes tag)

/-- The result for a connection that is not made. -/
def connectErrorCode : RusbmuxError → ResultCode
  | .deviceNotFound _ | .ranOutofSourcePort => .badDeviceOrNoSuchFile
  | _ => .connectionRefused

/-- `handle_connect`. What the relay writes to the client are no packets. -/
def handleConnect (tag : UInt32) : Handler Unit :=
  match outcomes.connect with
  | .ok () => do
    sendResult host.toPairRecordHost outcomes.faults .ok tag
    fun s => (outcomes.relay, s)
  | .error e => do
    sendResult host.toPairRecordHost outcomes.faults (connectErrorCode e) tag
    Handler.throw e

def configPath : String := host.lockdownPath ++ "/SystemConfiguration.plist"

/-- `path.exists()` -/
def configExists (s : RecordState) : Bool :=
  !outcomes.existsFails && (s.files.get (configPath host)).isSome

def newConfig : Bytes := host.xml.toXml (.dictionary [("SystemBUID", .string outcomes.uuid)])

/-- `plist::from_file` -/
def configFromFile : Handler PlistValue := fun s =>
  match outcomes.readConfig, s.files.get (configPath host) with
  | some text, _ => (.error (.plist text), s)
  | none, none => (.error (.plist "No such file or directory"), s)
  | none, some content => match host.xml.fromBytes content with
    | .ok value => (.ok value, s)
    | .error text => (.error (.plist text), s)

/-- The `SystemBUID` of the system configuration. -/
def systemBUID : PlistValue → Except RusbmuxError String
  | .dictionary entries => match entries.lookup "SystemBUID" with
    | some (.string buid) => .ok buid
    | some _ => .error (.invalidData "SystemBUID is not a string")
    | none => .error (.valueNotFound .systemBUID)
  | _ => .error (.unexpectedPacket "Expected a packet with a dictionary plist payload")

def sendBUID (tag : UInt32) : Handler Unit := do
  let systemConfig ← configFromFile host outcomes
  match systemBUID systemConfig with
  | .ok buid => sendPlist host outcomes (.dictionary [("BUID", .string buid)]) tag
  | .error e => Handler.throw e

def handleReadBuid (tag : UInt32) : Handler Unit := fun s =>
  if configExists host outcomes s then sendBUID host outcomes tag s
  else match fsWrite { outcomes.faults with fileSystem := outcomes.writeConfig }
      (configPath host) (newConfig host outcomes) s with
    | (.ok (), s) => sendBUID host outcomes tag s
    -- whether the result can be sent makes no difference
    | (.error _, s) =>
      (.ok (), (sendResult host.toPairRecordHost outcomes.faults .badDeviceOrNoSuchFile tag s).2)

end

namespace MissingFields

def resultCode : MissingFields → ResultCode
  | pairRecordID | pairRecordData | systemBUID => .invalidInput
  | deviceID => .badDeviceOrNoSuchFile
  | portNumber => .badCommand

/-- The name that `Debug` writes. -/
def debug : MissingFields → String
  | pairRecordID => "PairRecordID"
  | pairRecordData => "PairRecordData"
  | deviceID => "DeviceID"
  | portNumber => "PortNumber"
  | systemBUID => "SystemBUID"

end MissingFields

/-- `str::contains` -/
def containsText (text pattern : List Char) : Bool :=
  pattern.isPrefixOf text || match text with
    | [] => false
    | _ :: rest => containsText rest pattern

/-- The error that a text of `plist::from_value` is mapped to. -/
def requestError (text : String) : RusbmuxError :=
  match [MissingFields.pairRecordID, .pairRecordData, .deviceID, .portNumber].find? fun field =>
      let name := field.debug
      containsText text.toList s!"missing field `{name}`".toList with
  | some field => .valueNotFound field
  | none => .parse (.plist text)

/-- The result that a request which cannot be read is answered with. -/
def requestErrorCode : RusbmuxError → ResultCode
  | .valueNotFound field => field.resultCode
  | _ => .invalidInput

inductive HandlerError where
  | fatal (error : RusbmuxError) (request : Option PayloadMessageType)
  | nonFatal (error : RusbmuxError) (request : Option PayloadMessageType)
  deriving DecidableEq, Repr

inductive ControlFlow where
  | continue
  | break
  deriving DecidableEq, Repr

def classify (error : RusbmuxError) (request : Option PayloadMessageType) : HandlerError :=
  if request = some .connect ∨ request = some .listen then .fatal error request
  else .nonFatal error request

/-- What `handle_message` returns, with the state that it leaves. -/
abbrev Handled := Except HandlerError ControlFlow × RecordState

/-- The end of an arm of `handle_message`. -/
def classified (request : Option PayloadMessageType) (flow : ControlFlow) (m : Handler Unit)
    (s : RecordState) : Handled :=
  match m s with
  | (.ok (), s) => (.ok flow, s)
  | (.error e, s) => (.error (classify e request), s)

section

variable (host : HandlerHost) (outcomes : Outcomes)

def handleRequest (tag : UInt32) : UsbMuxRequest → RecordState → Handled
  | .listDevices => classified (some .listDevices) .continue (handleDeviceList host outcomes tag)
  | .listen => classified (some .listen) .break (handleListen host outcomes tag)
  | .listListeners =>
    classified (some .listListeners) .continue (handleListenersList host outcomes tag)
  | .readPairRecord id => classified (some .readPairRecord) .continue
      (handleReadPairRecord host.toPairRecordHost outcomes.faults id tag)
  | .connect _ _ => classified (some .connect) .break (handleConnect host outcomes tag)
  | .readBUID => classified (some .readBUID) .continue (handleReadBuid host outcomes tag)
  | .savePairRecord id data deviceId => classified (some .savePairRecord) .continue
      (handleSavePairRecord host.toPairRecordHost outcomes.faults id data deviceId tag)
  | .deletePairRecord id => classified (some .deletePairRecord) .continue
      (handleDeletePairRecord host.toPairRecordHost outcomes.faults id tag)

def refuseRequest (e : RusbmuxError) (tag : UInt32) : Handler Unit := do
  sendResult host.toPairRecordHost outcomes.faults (requestErrorCode e) tag
  Handler.throw e

def handleMessage (packet : UsbMuxPacket) : RecordState → Handled :=
  let tag := packet.header.tag
  match packet.header.msgType with
  | .messagePlist => match packet.payload.asPlist with
    | none => classified none .continue (Handler.throw (.unexpectedPacket "expected plist payload"))
    | some payload => match host.fromValue payload with
      | .ok request => handleRequest host outcomes tag request
      | .error text =>
        classified none .continue (refuseRequest host outcomes (requestError text) tag)
  | _ => classified none .continue
      (sendResult host.toPairRecordHost outcomes.faults .badCommand tag)

end

def isDisconnectIo : IoErrorKind → Bool
  | .connectionReset | .connectionAborted | .brokenPipe | .unexpectedEof => true
  | _ => false

def isDisconnect : RusbmuxError → Bool
  | .io kind => isDisconnectIo kind
  | _ => false

/-- Whether `handle_client` goes on to the next packet. -/
def goesOn : Except HandlerError ControlFlow → Bool
  | .ok .continue => true
  | .ok .break => false
  | .error (.fatal _ _) => false
  | .error (.nonFatal e _) => !isDisconnect e

end Rusbmux
