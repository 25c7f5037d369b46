import Mathlib.Data.Nat.Notation

/-! The error types of src/error/mod.rs. Texts that a foreign crate puts into
an error are kept as the text the error displays. -/
namespace Rusbmux

/-- The kinds of `std::io::Error` that the daemon tells apart. -/
inductive IoErrorKind where
  | notFound
  | permissionDenied
  | connectionReset
  | connectionAborted
  | brokenPipe
  | unexpectedEof
  | other
  deriving DecidableEq, Repr

inductive ParseError where
  | io (kind : IoErrorKind)
  | plist (text : String)
  | tcpHeaderSlice (text : String)
  | invalidData (text : String)
  deriving DecidableEq, Repr

inductive MissingFields where
  | pairRecordID
  | pairRecordData
  | deviceID
  | portNumber
  | systemBUID
  deriving DecidableEq, Repr

inductive RusbmuxError where
  | usb (text : String)
  | io (kind : IoErrorKind)
  | usbmuxInterfaceNotFound
  | bulkInEndpointNotFound
  | bulkOutEndpointNotFound
  | parse (e : ParseError)
  | channel (text : String)
  | unexpectedPacket (text : String)
  | invalidData (text : String)
  | valueNotFound (field : MissingFields)
  | deviceNotFound (id : ℕ)
  | hotPlugNotSupported
  | plist (text : String)
  | ranOutofSourcePort
  | powerAssertion (text : String)
  | idevice (text : String)
  | rusbError (text : String)
  deriving DecidableEq, Repr

end Rusbmux
