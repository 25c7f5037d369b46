import Rusbmux.Framing
import Rusbmux.TcpWire
import Rusbmux.MuxParserSafety

/-! What the decoders make of encoded packets, one behind the other. -/
namespace Rusbmux

open Parse

namespace UsbDevicePacketHeader

def rawProtocol : UsbDevicePacketHeader → UInt32
  | v1 h => h.protocol
  | v2 h => h.protocol

/-- The bytes of a header. -/
def encode (h : UsbDevicePacketHeader) : Bytes := h.encodeInto []

theorem length_encode (h : UsbDevicePacketHeader) : h.encode.length = h.size := by
  cases h <;> rfl

theorem take_encode (h : UsbDevicePacketHeader) (rest : Bytes) :
    (h.encode ++ rest).take 4 = be32 h.rawProtocol := by
  cases h <;> rfl

/-- A header is decoded from its bytes, whatever comes behind them. -/
theorem ofBytes_encode {h : UsbDevicePacketHeader} {p : UsbDevicePacketProtocol}
    (hsize : h.size = p.headerSize) (rest : Bytes) : ofBytes p (h.encode ++ rest) = h := by
  have htake : (h.encode ++ rest).take h.size = h.encode := List.take_left' h.length_encode
  cases h with
  | v1 h =>
    cases p with
    | version =>
      have hdecode : UsbDevicePacketHeaderV1.decode (encode (v1 h)) = h := by
        change UsbDevicePacketHeaderV1.mk (u32be (be32 h.protocol)) (u32be (be32 h.length)) = h
        rw [u32be_be32, u32be_be32]
      rw [ofBytes, show UsbDevicePacketHeaderV1.SIZE = (v1 h).size from rfl, htake, hdecode]
    | tcp | setup | control => cases hsize
  | v2 h =>
    have hdecode : UsbDevicePacketHeaderV2.decode (encode (v2 h)) = h := by
      change UsbDevicePacketHeaderV2.mk (u32be (be32 h.protocol)) (u32be (be32 h.length))
        (u32be (be32 h.magic)) (u16be (be16 h.sendSeq)) (u16be (be16 h.recvSeq)) = h
      rw [u32be_be32, u32be_be32, u32be_be32, u16be_be16, u16be_be16]
    cases p with
    | version => cases hsize
    | tcp | setup | control =>
      rw [ofBytes, show UsbDevicePacketHeaderV2.SIZE = (v2 h).size from rfl, htake, hdecode]

end UsbDevicePacketHeader

theorem UsbDevicePacketPayload.length_encode (payload : UsbDevicePacketPayload) :
    payload.encode.length = payload.len := by
  match payload with
  | .bytes b => rfl
  | .version v => rfl
  | .error none _ => rfl
  | .error (some e) none => rfl
  | .error (some e) (some m) => rfl

theorem UsbDevicePacketPayload.encodeInto_eq (buf : Bytes) (payload : UsbDevicePacketPayload) :
    payload.encodeInto buf = buf ++ payload.encode := by
  match payload with
  | .bytes b => rfl
  | .version v => rfl
  | .error none _ => exact (List.append_nil buf).symm
  | .error (some e) none => rfl
  | .error (some e) (some m) => exact List.append_assoc buf [e] _

theorem UsbDevicePacketVersion.ofBytes_encode (v : UsbDevicePacketVersion) :
    ofBytes v.encode = v := by
  change UsbDevicePacketVersion.mk (u32be (be32 v.major)) (u32be (be32 v.minor))
    (u32be (be32 v.padding)) = v
  rw [u32be_be32, u32be_be32, u32be_be32]

namespace UsbDevicePacket

/-- The parts of a packet fit together: what a decoder relies on. -/
structure WellFormed (p : UsbDevicePacket) (protocol : UsbDevicePacketProtocol) : Prop where
  protocol_eq : p.header.rawProtocol = protocol.toU32
  size_eq : p.header.size = protocol.headerSize
  noTcp : protocol ≠ .tcp → p.tcpHdr = none
  tcp : protocol = .tcp → ∃ h, p.tcpHdr = some h ∧ h.options = []
  length_eq : p.header.getLength.toNat = p.encodedLen
  payload_eq : ∀ s, UsbDevicePacketPayload.decode p.payload.encode protocol s =
    (.ok p.payload, s)

variable {wire : TcpWire} {p : UsbDevicePacket} {protocol : UsbDevicePacketProtocol}

/-- The bytes of the TCP header, none if there is no such header. -/
def tcpBytes (wire : TcpWire) (p : UsbDevicePacket) : Bytes :=
  (p.tcpHdr.map wire.toBytes).getD []

theorem encode_eq (wire : TcpWire) (p : UsbDevicePacket) :
    p.encode wire = p.header.encode ++ (p.tcpBytes wire ++ p.payload.encode) := by
  unfold encode encodeInto tcpBytes
  cases p.tcpHdr <;>
    simp only [UsbDevicePacketPayload.encodeInto_eq, UsbDevicePacketHeader.encode,
      Option.map_none, Option.map_some, Option.getD_none, Option.getD_some, List.nil_append,
      List.append_assoc]

theorem WellFormed.isV2 (h : p.WellFormed protocol) (ht : protocol = .tcp) :
    p.header.isV2 = true := by
  have hsize := h.size_eq
  subst ht
  cases hh : p.header with
  | v1 v =>
    rw [hh] at hsize
    cases hsize
  | v2 v => rfl

theorem tcpFromSlice_encode (hw : wire.Lawful) (h : p.WellFormed protocol) (rest : Bytes) :
    tcpFromSlice wire.toTcpCodec p.header protocol (p.tcpBytes wire ++ rest) =
      (.ok p.tcpHdr, rest) := by
  unfold tcpFromSlice
  by_cases ht : protocol = .tcp
  · obtain ⟨hdr, hhdr, hopt⟩ := h.tcp ht
    have hslice := hw.fromSlice_toBytes hdr rest hopt
    rw [if_pos ⟨ht, h.isV2 ht⟩, tcpBytes, hhdr]
    refine (bind_of_ok (rfl : Parse.left _ = (.ok _, _)) _).trans ?_
    simp only [Option.map_some, Option.getD_some, hslice]
    rfl
  · rw [if_neg fun hc => ht hc.1, tcpBytes, h.noTcp ht]
    rfl

theorem tcpFromReader_encode (hw : wire.Lawful) (h : p.WellFormed protocol) (rest : Bytes) :
    tcpFromReader wire.toTcpCodec protocol (p.tcpBytes wire ++ rest) = (.ok p.tcpHdr, rest) := by
  unfold tcpFromReader
  by_cases ht : protocol = .tcp
  · obtain ⟨hdr, hhdr, hopt⟩ := h.tcp ht
    have hlen : (wire.toBytes hdr).length = TcpHeader.MIN_LEN := by
      rw [hw.length_toBytes, TcpHeader.headerLen, hopt]
      rfl
    have hslice := hw.fromSlice_toBytes hdr [] hopt
    rw [List.append_nil] at hslice
    have hread : readExact TcpHeader.MIN_LEN (wire.toBytes hdr ++ rest) =
        (.ok (wire.toBytes hdr), rest) := by
      rw [readExact_of_le (by rw [List.length_append]; omega), List.take_left' hlen,
        List.drop_left' hlen]
    rw [if_pos ht, tcpBytes, hhdr]
    refine (bind_of_ok hread _).trans ?_
    simp only [hslice]
    rfl
  · rw [if_neg ht, tcpBytes, h.noTcp ht]
    rfl

theorem encodedLen_eq (p : UsbDevicePacket) :
    p.encodedLen = totalHeaderLen p.header p.tcpHdr+p.payload.len := rfl

/-- What both decoders see of a packet's header. -/
theorem WellFormed.header (h : p.WellFormed protocol) (tail : Bytes) :
    protocol.headerSize ≤ (p.header.encode ++ tail).length ∧
      protocolOf (p.header.encode ++ tail) = some protocol ∧
      (p.header.encode ++ tail).drop protocol.headerSize = tail := by
  have hlen : p.header.encode.length = protocol.headerSize :=
    p.header.length_encode.trans h.size_eq
  refine ⟨?_, ?_, List.drop_left' hlen⟩
  · rw [List.length_append, hlen]
    exact Nat.le_add_right _ _
  · rw [protocolOf, UsbDevicePacketHeader.take_encode, u32be_be32,
      UsbDevicePacketProtocol.tryFrom_eq_some_iff, h.protocol_eq]

theorem WellFormed.getProtocol (h : p.WellFormed protocol) (s : Bytes) :
    p.header.getProtocol s = (.ok protocol, s) := by
  have hget := UsbDevicePacketHeader.getProtocol_ofBytes (h.header []).2.1 s
  rwa [UsbDevicePacketHeader.ofBytes_encode h.size_eq] at hget

/-- The length that the decoders take from the header leaves just the payload. -/
theorem WellFormed.payloadLen (h : p.WellFormed protocol) :
    p.header.getLength.toNat-totalHeaderLen p.header p.tcpHdr = p.payload.encode.length := by
  rw [h.length_eq, encodedLen_eq, UsbDevicePacketPayload.length_encode, Nat.add_sub_cancel_left]

theorem WellFormed.not_length_lt (h : p.WellFormed protocol) :
    ¬p.header.getLength.toNat < totalHeaderLen p.header p.tcpHdr := by
  rw [h.length_eq, encodedLen_eq]
  exact Nat.not_lt.mpr (Nat.le_add_right _ _)

theorem encode_append (wire : TcpWire) (p : UsbDevicePacket) (rest : Bytes) :
    p.encode wire ++ rest =
      p.header.encode ++ (p.tcpBytes wire ++ (p.payload.encode ++ rest)) := by
  simp only [encode_eq, List.append_assoc]

/-- `from_slice` takes exactly the bytes of the packet. -/
theorem fromSlice_encode (hw : wire.Lawful) (h : p.WellFormed protocol) :
    Framing.Takes (fromSlice wire.toTcpCodec) (p.encode wire) (.ok p) := by
  intro rest
  obtain ⟨hsize, hproto, hdrop⟩ := h.header (p.tcpBytes wire ++ (p.payload.encode ++ rest))
  have hheader := UsbDevicePacketHeader.fromSlice_of_known hsize hproto
  rw [UsbDevicePacketHeader.ofBytes_encode h.size_eq, hdrop] at hheader
  have hle : p.payload.encode.length ≤ (p.payload.encode ++ rest).length := by
    rw [List.length_append]
    exact Nat.le_add_right _ _
  rw [encode_append]
  unfold fromSlice
  rw [bind_of_ok (rfl : Parse.left _ = (.ok _, _)), bind_of_ok hheader,
    bind_of_ok (h.getProtocol _), bind_of_ok (rfl : Parse.left _ = (.ok _, _)),
    bind_of_ok (tcpFromSlice_encode hw h _), if_neg h.not_length_lt, h.payloadLen,
    bind_of_ok (rfl : Parse.left _ = (.ok _, _)), if_neg (Nat.not_lt.mpr hle),
    bind_of_ok (prefixOf_of_le hle), bind_of_ok (advance_of_le hle), List.take_left,
    List.drop_left, bind_of_ok (h.payload_eq _)]
  rfl

/-- `from_reader` takes exactly the bytes of the packet. -/
theorem fromReader_encode (hw : wire.Lawful) (h : p.WellFormed protocol) :
    Framing.Takes (fromReader wire.toTcpCodec) (p.encode wire) (.ok p) := by
  intro rest
  obtain ⟨hsize, hproto, hdrop⟩ := h.header (p.tcpBytes wire ++ (p.payload.encode ++ rest))
  have hheader := UsbDevicePacketHeader.fromReader_of_known hsize hproto
  rw [UsbDevicePacketHeader.ofBytes_encode h.size_eq, hdrop] at hheader
  have hle : p.payload.encode.length ≤ (p.payload.encode ++ rest).length := by
    rw [List.length_append]
    exact Nat.le_add_right _ _
  rw [encode_append]
  unfold fromReader
  rw [bind_of_ok hheader, bind_of_ok (h.getProtocol _),
    bind_of_ok (tcpFromReader_encode hw h _), if_neg h.not_length_lt, h.payloadLen,
    bind_of_ok (readExact_of_le hle), List.take_left, List.drop_left,
    bind_of_ok (h.payload_eq _)]
  rfl

end UsbDevicePacket

/-- A header that is built carries the length it is given, if 32 bits hold it. -/
theorem toNat_ofNat_of_lt {n : ℕ} (h : n < UInt32.size) : (UInt32.ofNat n).toNat = n := by
  rw [UInt32.toNat_ofNat', Nat.mod_eq_of_lt h]

namespace UsbDevicePacketBuilder

/-- The protocol that a `build` puts into the header. -/
def protocol : UsbDevicePacketBuilder → UsbDevicePacketProtocol
  | version _ _ => .version
  | setup _ _ _ => .setup
  | tcp _ _ _ | tcpBytes _ _ _ _ | tcpPlist _ _ _ _ => .tcp

theorem tcpBytes_wellFormed (sendSeq recvSeq : UInt16) (args : TcpHeaderArgs) (payload : Bytes)
    (h : (buildTcpBytes sendSeq recvSeq args.header payload).encodedLen < UInt32.size) :
    (buildTcpBytes sendSeq recvSeq args.header payload).WellFormed .tcp where
  protocol_eq := rfl
  size_eq := rfl
  noTcp := fun hne => absurd rfl hne
  tcp := fun _ => ⟨args.header, rfl, rfl⟩
  length_eq := toNat_ofNat_of_lt h
  payload_eq := fun _ => rfl

/-- What every `build` makes fits together. -/
theorem build_wellFormed (toWriterXml : PlistValue → Bytes) (b : UsbDevicePacketBuilder)
    (h : (b.build toWriterXml).encodedLen < UInt32.size) :
    (b.build toWriterXml).WellFormed b.protocol := by
  cases b with
  | version major minor =>
    refine ⟨rfl, rfl, fun _ => rfl, (fun ht => by cases ht), rfl, fun s => ?_⟩
    have hdecode : UsbDevicePacketVersion.decode (UsbDevicePacketVersion.encode ⟨major, minor, 0⟩) =
        pure ⟨major, minor, 0⟩ := by
      refine (if_pos rfl).trans ?_
      rw [UsbDevicePacketVersion.ofBytes_encode]
    exact bind_of_ok (congrFun hdecode s) _
  | setup sendSeq recvSeq payload =>
    exact ⟨rfl, rfl, fun _ => rfl, (fun ht => by cases ht), toNat_ofNat_of_lt h,
      fun _ => rfl⟩
  | tcp sendSeq recvSeq args =>
    exact ⟨rfl, rfl, fun hne => absurd rfl hne, fun _ => ⟨args.header, rfl, rfl⟩, rfl,
      fun _ => rfl⟩
  | tcpBytes sendSeq recvSeq args payload =>
    exact tcpBytes_wellFormed sendSeq recvSeq args payload h
  | tcpPlist sendSeq recvSeq args value =>
    exact tcpBytes_wellFormed sendSeq recvSeq args (plistPayload (toWriterXml value)) h

end UsbDevicePacketBuilder

/-- A decoder that reads a stream with `read_exact` only. -/
def StreamRead (α : Type) : Type := Framing.ReadProgram UInt8 (Outcome α)

namespace StreamRead

open Framing (ReadProgram)

variable {α β : Type}

/-- An error or a fault ends the decoder. -/
def onOk (f : α → StreamRead β) : Outcome α → ReadProgram UInt8 (Outcome β)
  | .ok a => f a
  | .err e => ReadProgram.done (.err e)
  | .fault => ReadProgram.done .fault

instance : Monad StreamRead where
  pure a := ReadProgram.done (.ok a)
  bind m f := ReadProgram.andThen m (onOk f)

def readExact (n : ℕ) : StreamRead Bytes :=
  ReadProgram.readExact n fun b => ReadProgram.done (.ok b)

/-- A step that leaves the stream alone. -/
def lift (m : Parse α) : StreamRead α := ReadProgram.done (m []).1

/-- A stream that ends inside a `read_exact`. -/
def eof : Outcome α := .err (.io .unexpectedEof)

/-- The decoder on a stream in one piece. -/
def run (m : StreamRead α) : Parse α := ReadProgram.run eof m

/-- The decoder on a stream in pieces. -/
def runPieces (m : StreamRead α) : List Bytes → Outcome α × List Bytes :=
  ReadProgram.runPieces eof m

theorem run_bind (m : StreamRead α) (f : α → StreamRead β) :
    (m >>= f).run = m.run >>= fun a => (f a).run := by
  funext s
  refine (ReadProgram.run_andThen eof eof (onOk f) rfl m s).trans ?_
  rcases hm : ReadProgram.run eof m s with ⟨_ | _ | _, rest⟩
  · exact (bind_of_ok (m := m.run) hm fun a => (f a).run).symm
  · exact (bind_of_err (m := m.run) hm fun a => (f a).run).symm
  · exact (bind_of_fault (m := m.run) hm fun a => (f a).run).symm

theorem run_readExact (n : ℕ) : (readExact n).run = Parse.readExact n := rfl

theorem run_lift (m : Parse α) (h : ∀ s, m s = ((m []).1, s)) : (lift m).run = m := by
  funext s
  exact (h s).symm

end StreamRead

open StreamRead

/-- `UsbDevicePacketHeader::from_reader` by its reads. -/
def UsbDevicePacketHeader.streamRead : StreamRead UsbDevicePacketHeader := do
  let headerBuff ← StreamRead.readExact UsbDevicePacketHeaderV1.SIZE
  let protocol ← lift (UsbDevicePacketProtocol.new (headerBuff.take 4))
  match protocol with
  | .version => pure (v1 (.decode headerBuff))
  | .tcp | .setup | .control => do
    let more ← StreamRead.readExact
      (UsbDevicePacketHeaderV2.SIZE-UsbDevicePacketHeaderV1.SIZE)
    pure (v2 (.decode (headerBuff ++ more)))

theorem UsbDevicePacketProtocol.new_stays (v s : Bytes) :
    UsbDevicePacketProtocol.new v s = ((UsbDevicePacketProtocol.new v []).1, s) := by
  unfold UsbDevicePacketProtocol.new
  cases tryFrom (u32be v) <;> rfl

theorem UsbDevicePacketHeader.run_streamRead : streamRead.run = fromReader := by
  unfold streamRead fromReader
  rw [run_bind, run_readExact]
  congr 1
  funext headerBuff
  rw [run_bind, run_lift _ (UsbDevicePacketProtocol.new_stays _)]
  congr 1
  funext protocol
  cases protocol with
  | version => rfl
  | tcp | setup | control => rw [run_bind, run_readExact]; rfl

namespace UsbDevicePacket

variable (codec : TcpCodec)

def tcpStreamRead (protocol : UsbDevicePacketProtocol) : StreamRead (Option TcpHeader) := do
  if protocol = .tcp then do
    let tcpHdrBuff ← StreamRead.readExact TcpHeader.MIN_LEN
    match codec.fromSlice tcpHdrBuff with
    | .ok (h, _) => pure (some h)
    | .error e => lift (Parse.throw (.tcpHeaderSlice e))
  else pure none

/-- `UsbDevicePacket::from_reader` by its reads. -/
def streamRead : StreamRead UsbDevicePacket := do
  let header ← UsbDevicePacketHeader.streamRead
  let protocol ← lift header.getProtocol
  let tcpHdr ← tcpStreamRead codec protocol
  let headerLen := totalHeaderLen header tcpHdr
  let totalLength := header.getLength.toNat
  if totalLength < headerLen then lift (Parse.throw (lengthError totalLength headerLen))
  else do
    let payload ← StreamRead.readExact (totalLength-headerLen)
    let payload ← lift (UsbDevicePacketPayload.decode payload protocol)
    pure ⟨header, tcpHdr, payload⟩

theorem run_tcpStreamRead (protocol : UsbDevicePacketProtocol) :
    (tcpStreamRead codec protocol).run = tcpFromReader codec protocol := by
  unfold tcpStreamRead tcpFromReader
  split_ifs with ht
  · rw [run_bind, run_readExact]
    congr 1
    funext tcpHdrBuff
    cases codec.fromSlice tcpHdrBuff <;> rfl
  · rfl

theorem getProtocol_stays (h : UsbDevicePacketHeader) (s : Bytes) :
    h.getProtocol s = ((h.getProtocol []).1, s) := by
  unfold UsbDevicePacketHeader.getProtocol
  cases UsbDevicePacketProtocol.tryFrom _ <;> rfl

theorem decodePayload_stays (payload s : Bytes) (protocol : UsbDevicePacketProtocol) :
    UsbDevicePacketPayload.decode payload protocol s =
      ((UsbDevicePacketPayload.decode payload protocol []).1, s) := by
  cases protocol with
  | version =>
    by_cases h : payload.length = UsbDevicePacketVersion.SIZE
    · have hdec : UsbDevicePacketVersion.decode payload = pure (.ofBytes payload) := if_pos h
      simp only [UsbDevicePacketPayload.decode, hdec]
      rfl
    · have hdec : UsbDevicePacketVersion.decode payload = Parse.fault := if_neg h
      simp only [UsbDevicePacketPayload.decode, hdec]
      rfl
  | control => rcases payload with _ | ⟨e, _ | ⟨m, ms⟩⟩ <;> rfl
  | setup => rfl
  | tcp => rfl

/-- The reads are those of `from_reader`. -/
theorem run_streamRead : (streamRead codec).run = fromReader codec := by
  unfold streamRead fromReader
  rw [run_bind, UsbDevicePacketHeader.run_streamRead]
  congr 1
  funext header
  rw [run_bind, run_lift _ (getProtocol_stays header)]
  congr 1
  funext protocol
  rw [run_bind, run_tcpStreamRead]
  congr 1
  funext tcpHdr
  dsimp only
  split_ifs
  · rfl
  · rw [run_bind, run_readExact]
    congr 1
    funext payload
    rw [run_bind, run_lift _ (fun s => decodePayload_stays payload s protocol)]
    rfl

end UsbDevicePacket

/-- Both decoders, called once for each packet, give the packets and leave
nothing of their bytes, in whatever pieces a reader gets them. -/
structure StreamRoundTrip (wire : TcpWire) (ps : List UsbDevicePacket) : Prop where
  slice : Framing.reads (UsbDevicePacket.fromSlice wire.toTcpCodec) ps.length
    (ps.flatMap (UsbDevicePacket.encode wire)) = (ps.map .ok, [])
  reader : Framing.reads (UsbDevicePacket.fromReader wire.toTcpCodec) ps.length
    (ps.flatMap (UsbDevicePacket.encode wire)) = (ps.map .ok, [])
  pieces : ∀ cs, Framing.Pieces cs → cs.flatten = ps.flatMap (UsbDevicePacket.encode wire) →
    (Framing.reads (UsbDevicePacket.streamRead wire.toTcpCodec).runPieces ps.length cs).1 =
        ps.map .ok ∧
      (Framing.reads (UsbDevicePacket.streamRead wire.toTcpCodec).runPieces ps.length
        cs).2.flatten = []

/-- Packets whose parts fit together survive the way over the wire. -/
theorem streamRoundTrip_of_wellFormed {wire : TcpWire} (hw : wire.Lawful)
    (ps : List UsbDevicePacket) (h : ∀ p ∈ ps, ∃ protocol, p.WellFormed protocol) :
    StreamRoundTrip wire ps := by
  have hslice := Framing.reads_flatMap (UsbDevicePacket.encode wire) Outcome.ok ps
    (fun p hp => (h p hp).elim fun _ hwf => UsbDevicePacket.fromSlice_encode hw hwf) []
  have hreader := Framing.reads_flatMap (UsbDevicePacket.encode wire) Outcome.ok ps
    (fun p hp => (h p hp).elim fun _ hwf => UsbDevicePacket.fromReader_encode hw hwf) []
  rw [List.append_nil] at hslice hreader
  refine ⟨hslice, hreader, fun cs hcs hflat => ?_⟩
  have hpieces := Framing.reads_runPieces_eq StreamRead.eof
    (UsbDevicePacket.streamRead wire.toTcpCodec) ps.length hcs
  rw [hflat, show Framing.ReadProgram.run StreamRead.eof
    (UsbDevicePacket.streamRead wire.toTcpCodec) = UsbDevicePacket.fromReader wire.toTcpCodec from
    UsbDevicePacket.run_streamRead wire.toTcpCodec, hreader] at hpieces
  exact hpieces

/-- Every list of packets that the builder makes comes back from the stream of
their encodings, as long as each length fits the header's 32 bits. -/
theorem streamRoundTrip_build {wire : TcpWire} (hw : wire.Lawful)
    (toWriterXml : PlistValue → Bytes) (bs : List UsbDevicePacketBuilder)
    (h : ∀ b ∈ bs, (b.build toWriterXml).encodedLen < UInt32.size) :
    StreamRoundTrip wire (bs.map fun b => b.build toWriterXml) := by
  apply streamRoundTrip_of_wellFormed hw
  intro p hp
  obtain ⟨b, hb, rfl⟩ := List.mem_map.mp hp
  exact ⟨b.protocol, b.build_wellFormed toWriterXml (h b hb)⟩

set_option maxRecDepth 8000 in
theorem streamRoundTrip_build_session :
    StreamRoundTrip tcpWire ([.version 2 0, .setup 0 0 [7], .tcp 0 0 ⟨1, 62078, 0, 0, .SYN⟩,
      .tcpBytes 0 0 ⟨1, 62078, 1, 1, .ACK⟩ [1, 2, 3],
      .tcpPlist 0 0 ⟨1, 62078, 4, 1, .ACK⟩ (.string "QueryType")].map
        fun (b : UsbDevicePacketBuilder) => b.build writeXml) := by
  apply streamRoundTrip_build tcpWire_lawful
  intro b hb
  simp only [List.mem_cons, List.not_mem_nil, or_false] at hb
  rcases hb with rfl | rfl | rfl | rfl | rfl <;> decide

end Rusbmux
