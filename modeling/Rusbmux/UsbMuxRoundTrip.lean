import Rusbmux.MuxRoundTrip
import Rusbmux.ClientReplies

/-! What `UsbMuxPacket::from_reader` makes of the frames of
`UsbMuxPacket::encode_from`, one behind the other. -/
namespace Rusbmux

open Parse

theorem UsbMuxVersion.ofU32_toU32 (version : UsbMuxVersion) :
    ofU32 version.toU32 = some version := by
  cases version <;> rfl

theorem UsbMuxMsgType.ofU32_toU32 (msgType : UsbMuxMsgType) :
    ofU32 msgType.toU32 = some msgType := by
  cases msgType <;> rfl

theorem RawUsbMuxHeader.ofBytes_encode (h : UsbMuxHeader) :
    ofBytes h.encode = ⟨h.len, h.version.toU32, h.msgType.toU32, h.tag⟩ := by
  change RawUsbMuxHeader.mk (u32fromLe (u32le h.len)) (u32fromLe (u32le h.version.toU32))
    (u32fromLe (u32le h.msgType.toU32)) (u32fromLe (u32le h.tag)) = _
  simp only [u32fromLe_u32le]

/-- The arguments of a call of `encode_from`: 32 bits hold the length of the
frame, and a payload in plist mode is one that `plist::from_bytes` accepts. -/
structure UsbMuxFrame (xml : PlistXml) where
  payload : Bytes
  version : UsbMuxVersion
  msgType : UsbMuxMsgType
  tag : UInt32
  length_lt : payload.length+UsbMuxHeader.SIZE < UInt32.size
  accepted : version = .plist → ∃ value, xml.fromBytes payload = .ok value

namespace UsbMuxFrame

variable {xml : PlistXml}

def encode (f : UsbMuxFrame xml) : Bytes := encodeFrom f.payload f.version f.msgType f.tag

def header (f : UsbMuxFrame xml) : UsbMuxHeader where
  len := UInt32.ofNat (f.payload.length+UsbMuxHeader.SIZE)
  version := f.version
  msgType := f.msgType
  tag := f.tag

/-- What a reader should make of the payload. -/
def Carries (f : UsbMuxFrame xml) : UsbMuxPayload → Prop
  | .raw bytes => f.version = .binary ∧ bytes = f.payload
  | .plist value => f.version = .plist ∧ xml.fromBytes f.payload = .ok value

/-- What a reader should make of the frame. -/
structure IsRead (f : UsbMuxFrame xml) (packet : UsbMuxPacket) : Prop where
  version : packet.header.version = f.version
  msgType : packet.header.msgType = f.msgType
  tag : packet.header.tag = f.tag
  len : packet.header.len.toNat = f.encode.length
  payload : f.Carries packet.payload

variable (f : UsbMuxFrame xml)

theorem encode_eq : f.encode = f.header.encode ++ f.payload := rfl

theorem length_encode : f.encode.length = f.payload.length+UsbMuxHeader.SIZE := by
  rw [encode_eq, List.length_append, UsbMuxHeader.length_encode, Nat.add_comm]

theorem header_len : f.header.len.toNat = f.encode.length :=
  (toNat_ofNat_of_lt f.length_lt).trans f.length_encode.symm

theorem take_encode : f.encode.take UsbMuxHeader.SIZE = f.header.encode :=
  List.take_left' f.header.length_encode

theorem drop_encode : f.encode.drop UsbMuxHeader.SIZE = f.payload :=
  List.drop_left' f.header.length_encode

/-- The length field of an encoded frame is true. -/
def clientFrame : ClientFrame where
  bytes := f.encode
  size_le := by
    rw [length_encode]
    exact Nat.le_add_left _ _
  len_eq := by
    rw [take_encode, RawUsbMuxHeader.ofBytes_encode]
    exact f.header_len

theorem raw_clientFrame :
    f.clientFrame.raw = ⟨f.header.len, f.version.toU32, f.msgType.toU32, f.tag⟩ := by
  have htake : f.clientFrame.raw = .ofBytes f.header.encode :=
    congrArg RawUsbMuxHeader.ofBytes f.take_encode
  rw [htake, RawUsbMuxHeader.ofBytes_encode]
  rfl

/-- The payload passes the decoder, and what is behind it stays on the stream. -/
theorem decode_payload : ∃ payload, f.Carries payload ∧
    ∀ rest, UsbMuxPayload.decode xml f.version f.payload rest = (.ok payload, rest) := by
  cases hversion : f.version with
  | binary => exact ⟨.raw f.payload, ⟨hversion, rfl⟩, fun rest => rfl⟩
  | plist =>
    obtain ⟨value, hvalue⟩ := f.accepted hversion
    refine ⟨.plist value, ⟨hversion, hvalue⟩, fun rest => ?_⟩
    simp only [UsbMuxPayload.decode, hvalue]
    rfl

/-- `from_reader` takes exactly the bytes of the frame. -/
theorem fromReader_encode : ∃ packet, f.IsRead packet ∧
    Framing.Takes (UsbMuxPacket.fromReader xml) f.encode (.ok packet) := by
  obtain ⟨payload, hcarries, hdecode⟩ := f.decode_payload
  have hversion : f.clientFrame.version = some f.version := by
    rw [ClientFrame.version, raw_clientFrame]
    exact f.version.ofU32_toU32
  have hmsgType : f.clientFrame.msgType = some f.msgType := by
    rw [ClientFrame.msgType, raw_clientFrame]
    exact f.msgType.ofU32_toU32
  have hpayload : f.clientFrame.payload = f.payload := f.drop_encode
  refine ⟨⟨f.header, payload⟩, ⟨rfl, rfl, rfl, f.header_len, hcarries⟩, fun rest => ?_⟩
  have hread := f.clientFrame.fromReader_known xml hversion hmsgType rest
  rw [hpayload, ClientFrame.tag, raw_clientFrame, bind_of_ok (hdecode rest)] at hread
  exact hread

end UsbMuxFrame

open StreamRead

/-- `UsbMuxHeader::from_reader` by its reads. -/
def UsbMuxHeader.streamRead : StreamRead UsbMuxHeader := do
  let buf ← StreamRead.readExact SIZE
  let raw := RawUsbMuxHeader.ofBytes buf
  let version ← lift (UsbMuxVersion.tryFrom raw.version)
  let msgType ← lift (UsbMuxMsgType.tryFrom raw.msgType)
  pure ⟨raw.len, version, msgType, raw.tag⟩

/-- `UsbMuxPacket::from_reader` by its reads. -/
def UsbMuxPacket.streamRead (xml : PlistXml) : StreamRead UsbMuxPacket := do
  let header ← UsbMuxHeader.streamRead
  if header.len.toNat < UsbMuxHeader.SIZE then
    lift (Parse.throw (UsbMuxHeader.shortError header.len))
  else do
    let payload ← StreamRead.readExact (header.len.toNat-UsbMuxHeader.SIZE)
    let payload ← lift (UsbMuxPayload.decode xml header.version payload)
    pure ⟨header, payload⟩

theorem UsbMuxVersion.tryFrom_stays (value : UInt32) (s : Bytes) :
    tryFrom value s = ((tryFrom value []).1, s) := by
  unfold tryFrom
  cases ofU32 value <;> rfl

theorem UsbMuxMsgType.tryFrom_stays (value : UInt32) (s : Bytes) :
    tryFrom value s = ((tryFrom value []).1, s) := by
  unfold tryFrom
  cases ofU32 value <;> rfl

theorem UsbMuxPayload.decode_stays (xml : PlistXml) (version : UsbMuxVersion)
    (payload s : Bytes) :
    decode xml version payload s = ((decode xml version payload []).1, s) := by
  unfold decode
  cases version with
  | binary => rfl
  | plist => cases xml.fromBytes payload <;> rfl

theorem UsbMuxHeader.run_streamRead : streamRead.run = fromReader := by
  unfold streamRead fromReader
  rw [run_bind, run_readExact]
  congr 1
  funext buf
  rw [run_bind, run_lift _ (UsbMuxVersion.tryFrom_stays _)]
  congr 1
  funext version
  rw [run_bind, run_lift _ (UsbMuxMsgType.tryFrom_stays _)]
  rfl

/-- The reads are those of `from_reader`. -/
theorem UsbMuxPacket.run_streamRead (xml : PlistXml) :
    (streamRead xml).run = fromReader xml := by
  unfold streamRead fromReader
  rw [run_bind, UsbMuxHeader.run_streamRead]
  congr 1
  funext header
  split_ifs
  · rfl
  · rw [run_bind, run_readExact]
    congr 1
    funext payload
    rw [run_bind, run_lift _ (UsbMuxPayload.decode_stays xml _ payload)]
    rfl

/-- `from_reader`, called once for each frame, gives the packets and leaves
nothing of the bytes, in whatever pieces a reader gets them. -/
structure FramesRoundTrip {xml : PlistXml} (fs : List (UsbMuxFrame xml))
    (packets : List UsbMuxPacket) : Prop where
  each : List.Forall₂ UsbMuxFrame.IsRead fs packets
  reader : Framing.reads (UsbMuxPacket.fromReader xml) fs.length
    (fs.flatMap UsbMuxFrame.encode) = (packets.map .ok, [])
  pieces : ∀ cs, Framing.Pieces cs → cs.flatten = fs.flatMap UsbMuxFrame.encode →
    (Framing.reads (UsbMuxPacket.streamRead xml).runPieces fs.length cs).1 =
        packets.map .ok ∧
      (Framing.reads (UsbMuxPacket.streamRead xml).runPieces fs.length cs).2.flatten = []

/-- A run over a stream in pieces reads what it reads from the whole of it. -/
theorem UsbMuxPacket.reads_pieces {xml : PlistXml} {n : ℕ} {stream : Bytes}
    {out : List (Outcome UsbMuxPacket)}
    (hread : Framing.reads (fromReader xml) n stream = (out, [])) {cs : List Bytes}
    (hcs : Framing.Pieces cs) (hflat : cs.flatten = stream) :
    (Framing.reads (streamRead xml).runPieces n cs).1 = out ∧
      (Framing.reads (streamRead xml).runPieces n cs).2.flatten = [] := by
  have hrun : Framing.ReadProgram.run StreamRead.eof (streamRead xml) = fromReader xml :=
    run_streamRead xml
  have hpieces := Framing.reads_runPieces_eq StreamRead.eof (streamRead xml) n hcs
  rw [hflat, hrun, hread] at hpieces
  exact hpieces

/-- Frames that are written one behind the other come back with their versions,
message types, tags, lengths and payloads. -/
theorem framesRoundTrip {xml : PlistXml} (fs : List (UsbMuxFrame xml)) :
    ∃ packets, FramesRoundTrip fs packets := by
  choose packet hread htakes using fun f : UsbMuxFrame xml => f.fromReader_encode
  have hreader := Framing.reads_flatMap UsbMuxFrame.encode (fun f => Outcome.ok (packet f)) fs
    (fun f _ => htakes f) []
  rw [List.append_nil, ← Function.comp_def Outcome.ok packet, ← List.map_map] at hreader
  refine ⟨fs.map packet, ?_, hreader, fun cs hcs hflat => ?_⟩
  · apply List.forall₂_map_right_iff.mpr
    apply List.forall₂_same.mpr
    intro f _
    exact hread f
  · exact UsbMuxPacket.reads_pieces hreader hcs hflat

/-- The document of a refusal. -/
def refusal : Bytes := writeXml (resultValue .badCommand)

set_option maxRecDepth 8000 in
theorem refusal_length : refusal.length = 277 := by decide

theorem refusal_read : refusingHost.xml.fromBytes refusal = .ok (resultValue .badCommand) :=
  plistCodec_reads _

/-- A binary frame with three bytes, and a refusal. -/
def sentFrames : List (UsbMuxFrame refusingHost.xml) :=
  [⟨[1, 2, 3], .binary, .result, 7, by decide, fun h => nomatch h⟩,
    ⟨refusal, .plist, .messagePlist, 8, by rw [refusal_length]; decide,
      fun _ => ⟨_, refusal_read⟩⟩]

theorem sentFrames_encode : sentFrames.flatMap UsbMuxFrame.encode =
    [19, 0, 0, 0, 0, 0, 0, 0, 1, 0, 0, 0, 7, 0, 0, 0, 1, 2, 3,
      37, 1, 0, 0, 1, 0, 0, 0, 8, 0, 0, 0, 8, 0, 0, 0] ++ refusal := by
  simp only [sentFrames, List.flatMap_cons, List.flatMap_nil, List.append_nil, UsbMuxFrame.encode,
    encodeFrom, refusal_length, ← List.append_assoc]
  congr 1

theorem framesRoundTrip_sent : sentFrames.flatMap UsbMuxFrame.encode =
      [19, 0, 0, 0, 0, 0, 0, 0, 1, 0, 0, 0, 7, 0, 0, 0, 1, 2, 3,
        37, 1, 0, 0, 1, 0, 0, 0, 8, 0, 0, 0, 8, 0, 0, 0] ++ refusal ∧
    ∃ packets, FramesRoundTrip sentFrames packets :=
  ⟨sentFrames_encode, framesRoundTrip sentFrames⟩

end Rusbmux
