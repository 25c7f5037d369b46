import Rusbmux.PacketLayout
import Rusbmux.Utf8Reencode

/-! What the decoders of src/parser/device_mux/mod.rs return, written out again. -/
namespace Rusbmux

open Parse

/-- What etherparse documents: `to_bytes` writes a header that `from_slice` has
returned so that it returns it again. -/
def TcpWire.Rereads (wire : TcpWire) : Prop :=
  ∀ s h rest, wire.fromSlice s = .ok (h, rest) → wire.fromSlice (wire.toBytes h) = .ok (h, [])

theorem tcpWire_rereads : tcpWire.Rereads := by
  intro s h rest hs
  rw [tcpWire_fromSlice] at hs
  dsimp only [TcpHeader.fromSlice] at hs
  split_ifs at hs with hshort hmin
  cases hs
  have hpadded : (TcpHeader.ofBytes s ((s.getD 12 0 >>> 4).toNat*4)).Padded := by
    have hword : (s.getD 12 0 >>> 4).toNat < 16 := by
      rw [UInt8.toNat_shiftRight]
      have hlt := (s.getD 12 0).toNat_lt
      simp only [UInt8.reduceToNat, Nat.reduceMod, Nat.shiftRight_eq_div_pow]
      omega
    unfold TcpHeader.MIN_LEN at hmin
    simp only [TcpHeader.Padded, TcpHeader.ofBytes, List.length_drop, List.length_take,
      TcpHeader.MIN_LEN]
    omega
  have hread := TcpHeader.fromSlice_toBytes hpadded []
  rw [List.append_nil] at hread
  rw [tcpWire_toBytes, tcpWire_fromSlice, hread]

namespace UsbDevicePacketPayload

variable {p : UsbDevicePacketProtocol} {payload : Bytes}

/-- The ill-formed parts of a message do not take three bytes on average, as
many as what replaces each of them. -/
def Resized (message : Bytes) : Prop :=
  (Utf8Lossy.replaced message.length message).sum ≠
    3*(Utf8Lossy.replaced message.length message).length

theorem resized_iff (message : Bytes) :
    Resized message ↔ (Utf8Lossy.decode message).utf8ByteSize ≠ message.length := by
  have hsize := Utf8Lossy.utf8ByteSize_decode message
  unfold Resized
  omega

/-- A payload keeps its length, unless it is a message that does not. -/
theorem len_ofBytes_iff (hversion : p = .version → payload.length = UsbDevicePacketVersion.SIZE) :
    (ofBytes p payload).len = payload.length ↔ ¬ (p = .control ∧ Resized (payload.drop 1)) := by
  cases p with
  | version => simp only [ofBytes, len, hversion rfl, reduceCtorEq, false_and, not_false_eq_true]
  | setup | tcp => simp only [ofBytes, len, reduceCtorEq, false_and, not_false_eq_true]
  | control =>
    rcases payload with _ | ⟨e, _ | ⟨m, ms⟩⟩
    · simp only [ofBytes, len, List.length_nil, true_and, true_iff]
      exact fun h => h rfl
    · simp only [ofBytes, len, List.length_singleton, true_and, true_iff]
      exact fun h => h rfl
    · rw [resized_iff]
      simp only [ofBytes, len, List.drop_one, List.tail_cons, true_and, ne_eq, not_not,
        List.length_cons, Nat.add_right_cancel_iff]

/-- A payload that keeps its length is decoded from its bytes. -/
theorem ofBytes_encode (hversion : p = .version → payload.length = UsbDevicePacketVersion.SIZE)
    (hlen : (ofBytes p payload).len = payload.length) :
    ofBytes p (ofBytes p payload).encode = ofBytes p payload := by
  cases p with
  | version =>
    exact congrArg UsbDevicePacketPayload.version (UsbDevicePacketVersion.ofBytes_encode _)
  | setup | tcp => rfl
  | control =>
    rcases payload with _ | ⟨e, _ | ⟨m, ms⟩⟩
    · rfl
    · rfl
    · simp only [ofBytes, len, List.length_cons] at hlen
      -- a message that is there does not vanish, so the type byte is the first one again
      have hne : (Utf8Lossy.decode (m :: ms)).toUTF8.data.toList ≠ [] := by
        intro hnil
        have hzero := congrArg List.length hnil
        rw [Array.length_toList, String.toUTF8_eq_toByteArray] at hzero
        have hsize : (Utf8Lossy.decode (m :: ms)).utf8ByteSize = 0 := hzero
        omega
      obtain ⟨x, xs, hx⟩ := List.exists_cons_of_ne_nil hne
      have hdecode := Utf8Lossy.decode_toUTF8 (Utf8Lossy.decode (m :: ms))
      rw [hx] at hdecode
      simp only [ofBytes, encode, hx, hdecode]

end UsbDevicePacketPayload

namespace UsbDevicePacket

/-- `get_payload_len_from_headers`, which panics when the length is too short
for the headers. -/
def getPayloadLenFromHeaders (p : UsbDevicePacket) : Option ℕ :=
  let tcpHdrLen := (p.tcpHdr.map TcpHeader.headerLen).getD 0
  if p.header.size+tcpHdrLen ≤ p.header.getLength.toNat then
    some (p.header.getLength.toNat-p.header.size-tcpHdrLen)
  else none

/-- The lengths of a packet fit together, and the decoder reads it from its own
bytes. -/
structure SelfConsistent (wire : TcpWire) (decoder : Parse UsbDevicePacket)
    (q : UsbDevicePacket) : Prop where
  length_eq : q.header.getLength.toNat =
    q.header.size+(q.tcpHdr.map TcpHeader.headerLen).getD 0+q.payload.len
  payloadLen_eq : q.getPayloadLenFromHeaders = some q.payload.len
  length_encode : (q.encode wire).length = q.header.getLength.toNat
  decodes : decoder (q.encode wire) = (.ok q, [])

/-- Every packet that a decoder makes of the bytes is consistent for it. -/
structure Consistent (wire : TcpWire) (b : Bytes) : Prop where
  slice : ∀ q r, fromSlice wire.toTcpCodec b = (.ok q, r) →
    SelfConsistent wire (fromSlice wire.toTcpCodec) q
  reader : ∀ q r, fromReader wire.toTcpCodec b = (.ok q, r) →
    SelfConsistent wire (fromReader wire.toTcpCodec) q

/-- A whole control packet whose message does not keep its length. -/
structure ResizesMessage (b : Bytes) : Prop where
  protocol_eq : protocolOf b = some .control
  header_le : UsbDevicePacketHeaderV2.SIZE ≤ lengthWord b
  length_le : lengthWord b ≤ b.length
  resized : UsbDevicePacketPayload.Resized
    (((b.take (lengthWord b)).drop UsbDevicePacketHeaderV2.SIZE).drop 1)

variable {wire : TcpWire} {b r : Bytes} {p : UsbDevicePacketProtocol}
  {tcpHdr : Option TcpHeader} {q : UsbDevicePacket}

theorem rawProtocol_ofBytes (hp : protocolOf b = some p) :
    (UsbDevicePacketHeader.ofBytes p b).rawProtocol = p.toU32 := by
  have hword := (UsbDevicePacketProtocol.tryFrom_eq_some_iff _ _).mp hp
  have h8 := take_protocol b (by decide : 4 ≤ UsbDevicePacketHeaderV1.SIZE)
  have h16 := take_protocol b (by decide : 4 ≤ UsbDevicePacketHeaderV2.SIZE)
  cases p with
  | version =>
    rw [← hword, ← h8]
    rfl
  | tcp | setup | control =>
    rw [← hword, ← h16]
    rfl

theorem size_ofBytes : (UsbDevicePacketHeader.ofBytes p b).size = p.headerSize := by
  cases p <;> rfl

/-- What the decoders see of the bytes of a header. -/
theorem header_encode (hp : protocolOf b = some p) (rest : Bytes) :
    protocolOf ((UsbDevicePacketHeader.ofBytes p b).encode ++ rest) = some p ∧
      UsbDevicePacketHeader.ofBytes p ((UsbDevicePacketHeader.ofBytes p b).encode ++ rest) =
        .ofBytes p b ∧
      ((UsbDevicePacketHeader.ofBytes p b).encode ++ rest).drop p.headerSize = rest := by
  refine ⟨?_, UsbDevicePacketHeader.ofBytes_encode size_ofBytes rest, ?_⟩
  · rw [protocolOf, UsbDevicePacketHeader.take_encode, u32be_be32, rawProtocol_ofBytes hp,
      UsbDevicePacketProtocol.tryFrom_eq_some_iff]
  · exact List.drop_left' ((UsbDevicePacketHeader.length_encode _).trans size_ofBytes)

theorem lengthWord_encode (hp : protocolOf b = some p) (rest : Bytes) :
    lengthWord ((UsbDevicePacketHeader.ofBytes p b).encode ++ rest) = lengthWord b := by
  rw [← getLength_ofBytes p, (header_encode hp rest).2.1, getLength_ofBytes]

/-- The bytes of a TCP header that was taken off a slice. -/
theorem tcpTaken_encode (hc : wire.TakesHeader) (hr : wire.Rereads) {s t : Bytes}
    (h : TcpTaken wire.toTcpCodec p s tcpHdr t) (rest : Bytes) :
    ((tcpHdr.map wire.toBytes).getD []).length = (tcpHdr.map TcpHeader.headerLen).getD 0 ∧
      TcpTaken wire.toTcpCodec p ((tcpHdr.map wire.toBytes).getD [] ++ rest) tcpHdr rest := by
  rcases h with ⟨hp, rfl, rfl⟩ | ⟨hp, h, rfl, hs⟩
  · exact ⟨rfl, .inl ⟨hp, rfl, rfl⟩⟩
  · obtain ⟨front, hfront, hlen, htakes⟩ := hc _ _ _ (hr _ _ _ hs)
    rw [List.append_nil] at hfront
    simp only [Option.map_some, Option.getD_some, hfront]
    exact ⟨hlen, .inr ⟨hp, h, rfl, htakes rest⟩⟩

/-- The bytes of the payload. -/
def payloadBytes (b : Bytes) (p : UsbDevicePacketProtocol) (tcpHdr : Option TcpHeader) : Bytes :=
  (b.take (lengthWord b)).drop (headersLen p tcpHdr)

theorem Layout.length_payloadBytes {codec : TcpCodec} (hl : Layout codec b p tcpHdr) :
    headersLen p tcpHdr+(payloadBytes b p tcpHdr).length = lengthWord b := by
  have hheaders := hl.headers_le
  have hlen := hl.length_le
  rw [payloadBytes, List.length_drop, List.length_take]
  omega

theorem Layout.version_length {codec : TcpCodec} (hl : Layout codec b p tcpHdr)
    (hp : p = .version) : (payloadBytes b p tcpHdr).length = UsbDevicePacketVersion.SIZE := by
  have hlen := hl.length_payloadBytes
  have hversion := hl.version hp
  omega

theorem packetOf_payload : (packetOf b p tcpHdr).payload = .ofBytes p (payloadBytes b p tcpHdr) :=
  rfl

/-- A packet that keeps the length of its payload is laid out as it was. -/
theorem Layout.encode (hc : wire.TakesHeader) (hr : wire.Rereads)
    (hl : Layout wire.toTcpCodec b p tcpHdr)
    (hlen : (packetOf b p tcpHdr).payload.len = (payloadBytes b p tcpHdr).length) :
    ((packetOf b p tcpHdr).encode wire).length = lengthWord b ∧
      lengthWord ((packetOf b p tcpHdr).encode wire) = lengthWord b ∧
      Layout wire.toTcpCodec ((packetOf b p tcpHdr).encode wire) p tcpHdr ∧
      packetOf ((packetOf b p tcpHdr).encode wire) p tcpHdr = packetOf b p tcpHdr := by
  have hpayload : (packetOf b p tcpHdr).payload.encode.length = (payloadBytes b p tcpHdr).length :=
    (UsbDevicePacketPayload.length_encode _).trans hlen
  generalize hpb : (packetOf b p tcpHdr).payload.encode = payload at hpayload
  obtain ⟨htcpLen, htaken⟩ := tcpTaken_encode hc hr hl.tcp payload
  have hencode : (packetOf b p tcpHdr).encode wire = (UsbDevicePacketHeader.ofBytes p b).encode ++
      ((tcpHdr.map wire.toBytes).getD [] ++ payload) := by
    rw [encode_eq, hpb]
    rfl
  obtain ⟨hproto, hheader, hdrop⟩ :=
    header_encode hl.protocol_eq ((tcpHdr.map wire.toBytes).getD [] ++ payload)
  have hword := lengthWord_encode hl.protocol_eq ((tcpHdr.map wire.toBytes).getD [] ++ payload)
  rw [← hencode] at hproto hheader hdrop hword
  -- from here on the bytes are read field by field
  have hheaders : ((packetOf b p tcpHdr).encode wire).drop (headersLen p tcpHdr) = payload := by
    rw [headersLen, ← List.drop_drop, hdrop, ← htcpLen, List.drop_left]
  have htotal : ((packetOf b p tcpHdr).encode wire).length = lengthWord b := by
    rw [← hl.length_payloadBytes, hencode, List.length_append, List.length_append, htcpLen,
      hpayload, UsbDevicePacketHeader.length_encode, size_ofBytes, headersLen, Nat.add_assoc]
  refine ⟨htotal, hword, ⟨hproto, ?_, ?_, ?_, ?_⟩, ?_⟩
  · rw [hdrop, hheaders]
    exact htaken
  · rw [hword]
    exact hl.headers_le
  · exact Nat.le_of_eq (hword.trans htotal.symm)
  · rw [hword]
    exact hl.version
  · have hagain : UsbDevicePacketPayload.ofBytes p payload = (packetOf b p tcpHdr).payload := by
      rw [← hpb]
      exact UsbDevicePacketPayload.ofBytes_encode hl.version_length hlen
    rw [packetOf, hheader, hword, ← htotal, List.take_length, hheaders, hagain]
    rfl

/-- Of what a decoder has returned, only the length of the payload can be wrong. -/
theorem Layout.selfConsistent_iff {codec : TcpCodec} {decoder : Parse UsbDevicePacket}
    (hl : Layout codec b p tcpHdr)
    (hencode : (packetOf b p tcpHdr).payload.len = (payloadBytes b p tcpHdr).length →
      ((packetOf b p tcpHdr).encode wire).length = lengthWord b ∧
        decoder ((packetOf b p tcpHdr).encode wire) = (.ok (packetOf b p tcpHdr), [])) :
    SelfConsistent wire decoder (packetOf b p tcpHdr) ↔
      (packetOf b p tcpHdr).payload.len = (payloadBytes b p tcpHdr).length := by
  have hword : (packetOf b p tcpHdr).header.getLength.toNat = lengthWord b := getLength_ofBytes p b
  have hheaders : (packetOf b p tcpHdr).header.size+
      ((packetOf b p tcpHdr).tcpHdr.map TcpHeader.headerLen).getD 0 = headersLen p tcpHdr :=
    totalHeaderLen_ofBytes p b tcpHdr
  have hlength := hl.length_payloadBytes
  constructor
  · intro hs
    have heq := hs.length_eq
    rw [hword, hheaders] at heq
    omega
  · intro hlen
    obtain ⟨hbytes, hdecodes⟩ := hencode hlen
    refine ⟨?_, ?_, ?_, hdecodes⟩
    · rw [hword, hheaders, hlen, hlength]
    · rw [getPayloadLenFromHeaders]
      simp only [hword, hheaders, Nat.sub_sub, if_pos hl.headers_le, hlen]
      rw [← hlength, Nat.add_sub_cancel_left]
    · rw [hbytes, hword]

theorem Layout.tcpHdr_of_control {codec : TcpCodec} (hl : Layout codec b .control tcpHdr) :
    tcpHdr = none := by
  rcases hl.tcp with ⟨-, htcp, -⟩ | ⟨hp, -⟩
  · exact htcp
  · cases hp

theorem Layout.len_iff {codec : TcpCodec} (hl : Layout codec b p tcpHdr) :
    (packetOf b p tcpHdr).payload.len = (payloadBytes b p tcpHdr).length ↔
      ¬ ResizesMessage b := by
  rw [packetOf_payload, UsbDevicePacketPayload.len_ofBytes_iff hl.version_length, not_iff_not]
  constructor
  · rintro ⟨rfl, hresized⟩
    obtain rfl := hl.tcpHdr_of_control
    exact ⟨hl.protocol_eq, hl.headers_le, hl.length_le, hresized⟩
  · intro h
    obtain rfl : p = .control := Option.some.inj (hl.protocol_eq.symm.trans h.protocol_eq)
    obtain rfl := hl.tcpHdr_of_control
    exact ⟨rfl, h.resized⟩

theorem Layout.slice_selfConsistent_iff (hc : wire.TakesHeader) (hr : wire.Rereads)
    (hl : Layout wire.toTcpCodec b p tcpHdr) :
    SelfConsistent wire (fromSlice wire.toTcpCodec) (packetOf b p tcpHdr) ↔
      ¬ ResizesMessage b := by
  rw [← hl.len_iff]
  apply hl.selfConsistent_iff
  intro hlen
  obtain ⟨hbytes, hword, hagain, hpacket⟩ := hl.encode hc hr hlen
  refine ⟨hbytes, (fromSlice_eq_ok_iff hc).mpr ⟨p, tcpHdr, hagain, hpacket.symm, ?_⟩⟩
  rw [hword, ← hbytes, List.drop_length]

theorem Layout.reader_selfConsistent_iff (hc : wire.TakesHeader) (hr : wire.Rereads)
    (hl : Layout wire.toTcpCodec b p tcpHdr) (hopt : NoOptions tcpHdr) :
    SelfConsistent wire (fromReader wire.toTcpCodec) (packetOf b p tcpHdr) ↔
      ¬ ResizesMessage b := by
  rw [← hl.len_iff]
  apply hl.selfConsistent_iff
  intro hlen
  obtain ⟨hbytes, hword, hagain, hpacket⟩ := hl.encode hc hr hlen
  refine ⟨hbytes, (fromReader_eq_ok_iff hc).mpr ⟨p, tcpHdr, hagain, hopt, hpacket.symm, ?_⟩⟩
  rw [hword, ← hbytes, List.drop_length]

theorem ResizesMessage.layout (h : ResizesMessage b) (codec : TcpCodec) :
    Layout codec b .control none where
  protocol_eq := h.protocol_eq
  tcp := .inl ⟨fun hp => (by cases hp), rfl, rfl⟩
  headers_le := h.header_le
  length_le := h.length_le
  version := fun hp => (by cases hp)

/-- The decoders return consistent packets of all bytes but those of a control
packet whose message they have to repair into another length. -/
theorem consistent_iff (hc : wire.TakesHeader) (hr : wire.Rereads) (b : Bytes) :
    Consistent wire b ↔ ¬ ResizesMessage b := by
  constructor
  · intro h hresizes
    have hl := hresizes.layout wire.toTcpCodec
    have hs := h.slice _ _ ((fromSlice_eq_ok_iff hc).mpr ⟨_, _, hl, rfl, rfl⟩)
    exact (hl.slice_selfConsistent_iff hc hr).mp hs hresizes
  · intro h
    refine ⟨fun q r hq => ?_, fun q r hq => ?_⟩
    · obtain ⟨p, tcpHdr, hl, rfl, -⟩ := (fromSlice_eq_ok_iff hc).mp hq
      exact (hl.slice_selfConsistent_iff hc hr).mpr h
    · obtain ⟨p, tcpHdr, hl, hopt, rfl, -⟩ := (fromReader_eq_ok_iff hc).mp hq
      exact (hl.reader_selfConsistent_iff hc hr hopt).mpr h

/-- A control packet whose message is a single byte of no character. -/
def illFormedMessage : Bytes :=
  be32 1 ++ be32 18 ++ be32 DEVICE_MUX_HEADER_V2_MAGIC ++ be16 1 ++ be16 1 ++ [3, 0xff]

theorem consistent_iff_illFormed : Consistent tcpWire illFormedMessage ↔
    ¬ ResizesMessage illFormedMessage :=
  consistent_iff tcpWire_takesHeader tcpWire_rereads illFormedMessage

/-- One byte of the message has become three, and the length word still counts one. -/
theorem illFormed_not_consistent : ¬ ∀ wire : TcpWire, wire.TakesHeader → wire.Rereads →
    ∀ b : Bytes, Consistent wire b := by
  intro h
  have hs := (h tcpWire tcpWire_takesHeader tcpWire_rereads illFormedMessage).slice _ _ rfl
  have heq := hs.length_eq
  exact absurd heq (by decide)

end UsbDevicePacket

end Rusbmux
