import Rusbmux.MuxRoundTrip
import Rusbmux.ParseStream

/-! The reader loop of src/device/usb.rs, on a stream of frames that may be
refused one by one. -/
namespace Rusbmux

open Parse

namespace UsbDevicePacket

variable (codec : TcpCodec)

/-- The end of `from_reader`, once it has all headers. -/
def readPayload (header : UsbDevicePacketHeader) (protocol : UsbDevicePacketProtocol)
    (tcpHdr : Option TcpHeader) : Parse UsbDevicePacket :=
  if header.getLength.toNat < totalHeaderLen header tcpHdr then
    Parse.throw (lengthError header.getLength.toNat (totalHeaderLen header tcpHdr))
  else do
    let payload ← Parse.readExact (header.getLength.toNat-totalHeaderLen header tcpHdr)
    let payload ← UsbDevicePacketPayload.decode payload protocol
    pure ⟨header, tcpHdr, payload⟩

theorem fromReader_eq : fromReader codec =
    UsbDevicePacketHeader.fromReader >>= fun header => header.getProtocol >>= fun protocol =>
      tcpFromReader codec protocol >>= readPayload header protocol := rfl

theorem shrinks_readPayload (header : UsbDevicePacketHeader) (protocol : UsbDevicePacketProtocol)
    (tcpHdr : Option TcpHeader) : Shrinks (readPayload header protocol tcpHdr) := by
  unfold readPayload
  split_ifs
  · exact shrinks_throw _
  · refine shrinks_bind (shrinks_readExact _) fun payload => ?_
    refine shrinks_bind (fun s => ?_) fun _ => shrinks_pure _
    exact Nat.le_of_eq (by rw [decodePayload_stays])

theorem shrinks_tcpFromReader (protocol : UsbDevicePacketProtocol) :
    Shrinks (tcpFromReader codec protocol) := by
  unfold tcpFromReader
  split_ifs
  · refine shrinks_bind (shrinks_readExact _) fun b => ?_
    cases codec.fromSlice b with
    | ok r => exact shrinks_pure _
    | error e => exact shrinks_throw _
  · exact shrinks_pure _

/-- Every call either finds the stream at its end or takes bytes off it. -/
theorem fromReader_length_lt (s : Bytes) (h : UsbDevicePacketHeaderV1.SIZE ≤ s.length) :
    (fromReader codec s).2.length < s.length := by
  have hpos : 0 < UsbDevicePacketHeaderV1.SIZE := by decide
  have hheader : (UsbDevicePacketHeader.fromReader s).2.length < s.length := by
    unfold UsbDevicePacketHeader.fromReader
    rw [bind_of_ok (readExact_of_le h)]
    refine Nat.lt_of_le_of_lt (shrinks_bind (fun s => ?_) (fun protocol => ?_) _) ?_
    · exact Nat.le_of_eq (by rw [UsbDevicePacketProtocol.new_stays])
    · cases protocol with
      | version => exact shrinks_pure _
      | tcp | setup | control =>
        exact shrinks_bind (shrinks_readExact _) fun _ => shrinks_pure _
    · rw [List.length_drop]
      omega
  rw [fromReader_eq]
  refine Nat.lt_of_le_of_lt (length_bind_le (fun header => ?_) s) hheader
  refine shrinks_bind (fun s => ?_) fun protocol => ?_
  · exact Nat.le_of_eq (by rw [getProtocol_stays])
  · exact shrinks_bind (shrinks_tcpFromReader codec protocol) fun tcpHdr =>
      shrinks_readPayload header protocol tcpHdr

theorem fromReader_short (s : Bytes) (h : s.length < UsbDevicePacketHeaderV1.SIZE) :
    fromReader codec s = (.err (.io .unexpectedEof), []) := by
  rw [fromReader_eq]
  exact bind_of_err (UsbDevicePacketHeader.fromReader_of_short h) _

/-- A call that does not end the loop has taken bytes. -/
theorem length_lt_of_fromReader {s rest : Bytes} {o : Outcome UsbDevicePacket}
    (h : fromReader codec s = (o, rest)) (ho : ∀ kind, o ≠ .err (.io kind)) :
    rest.length < s.length := by
  by_cases h8 : UsbDevicePacketHeaderV1.SIZE ≤ s.length
  · have hlt := fromReader_length_lt codec s h8
    rwa [h] at hlt
  · rw [fromReader_short codec s (Nat.not_le.mp h8)] at h
    cases h
    exact absurd rfl (ho .unexpectedEof)

def isRst (p : UsbDevicePacket) : Bool := p.tcpHdr.any fun h => h.rst

end UsbDevicePacket

/-- What the reader loop has done: the packets it counted, those it gave to the
router, and whether it gave notice that the device is gone. -/
structure ReaderLoop where
  recvSeq : UInt16
  routed : List UsbDevicePacket
  notified : Bool

namespace ReaderLoop

variable (codec : TcpCodec)

def start : ReaderLoop := ⟨0, [], false⟩

/-- A packet that was read. A reset is only logged. -/
def handle (s : ReaderLoop) (packet : UsbDevicePacket) : ReaderLoop :=
  let s := { s with recvSeq := s.recvSeq+1 }
  if packet.isRst then s else { s with routed := s.routed ++ [packet] }

/-- `start_reader_loop` on the bytes that the device sends before it is gone. A
fault ends the task. -/
def startReaderLoop (s : ReaderLoop) (stream : Bytes) : ReaderLoop :=
  match _h : UsbDevicePacket.fromReader codec stream with
  | (.ok packet, rest) => startReaderLoop (s.handle packet) rest
  | (.err (.io _), _) => { s with notified := true }
  | (.err (.plist _), rest) | (.err (.tcpHeaderSlice _), rest) | (.err (.invalidData _), rest) =>
    startReaderLoop s rest
  | (.fault, _) => s
termination_by stream.length
decreasing_by all_goals exact UsbDevicePacket.length_lt_of_fromReader codec _h (by simp)

end ReaderLoop

/-- A frame of the device's stream: its length word is true. -/
structure Frame where
  bytes : Bytes
  eight_le : UsbDevicePacketHeaderV1.SIZE ≤ bytes.length
  length_eq : lengthWord bytes = bytes.length

def stream (fs : List Frame) : Bytes := fs.flatMap Frame.bytes

theorem stream_cons (f : Frame) (fs : List Frame) : stream (f :: fs) = f.bytes ++ stream fs := rfl

namespace Frame

variable (codec : TcpCodec) (f : Frame)

def length : ℕ := f.bytes.length

def protocol : Option UsbDevicePacketProtocol := protocolOf f.bytes

/-- The bytes that `from_reader` takes for the TCP header. -/
def tcpHeader : Except String (TcpHeader × Bytes) :=
  codec.fromSlice ((f.bytes.drop UsbDevicePacketHeaderV2.SIZE).take TcpHeader.MIN_LEN)

/-- The TCP header can be parsed. -/
def parses : Bool := (f.tcpHeader codec).isOk

theorem exists_of_parses {codec : TcpCodec} {f : Frame} (h : f.parses codec = true) :
    ∃ hdr rest, f.tcpHeader codec = .ok (hdr, rest) := by
  unfold parses at h
  cases hslice : f.tcpHeader codec with
  | error e =>
    rw [hslice] at h
    cases h
  | ok r => exact ⟨r.1, r.2, rfl⟩

/-- The frame has just the packet that its protocol asks for. -/
def acceptable : Bool :=
  match f.protocol with
  | none => false
  | some .version => f.length == UsbDevicePacketHeaderV1.SIZE+UsbDevicePacketVersion.SIZE
  | some .control | some .setup => UsbDevicePacketHeaderV2.SIZE ≤ f.length
  | some .tcp => UsbDevicePacket.HEADERS_LEN_V2 ≤ f.length && f.parses codec

/-- A TCP frame whose header resets its connection. -/
def resets : Bool :=
  f.protocol == some .tcp && match f.tcpHeader codec with
    | .ok (hdr, _) => hdr.rst
    | .error _ => false

/-- A frame whose packet goes to the router. -/
def routable : Bool := f.acceptable codec && !f.resets codec

/-- How much is read of a frame when it is refused. A version never is. -/
def refusedAt : Option ℕ :=
  match f.protocol with
  | none => some UsbDevicePacketHeaderV1.SIZE
  | some .version => none
  | some .control | some .setup => some UsbDevicePacketHeaderV2.SIZE
  | some .tcp => some UsbDevicePacket.HEADERS_LEN_V2

/-- The frame is acceptable, or it ends where it is refused, or the loop ends
with it and nothing for the router follows. -/
def InStep (post : List Frame) : Prop :=
  f.acceptable codec = true ∨ f.refusedAt = some f.length ∨
    (∀ n, f.refusedAt = some n → f.length+(stream post).length < n) ∧
      ∀ g ∈ post, g.routable codec = false

/-- The packet of a frame that stands alone, if it is one that goes to the router. -/
def routedPacket : Option UsbDevicePacket :=
  match (UsbDevicePacket.fromReader codec f.bytes).1 with
  | .ok packet => if packet.isRst then none else some packet
  | _ => none

theorem protocolOf_append (rest : Bytes) : protocolOf (f.bytes ++ rest) = f.protocol := by
  have h8 : UsbDevicePacketHeaderV1.SIZE ≤ f.bytes.length := f.eight_le
  have h4 : 4 ≤ f.bytes.length := Nat.le_trans (by decide) h8
  rw [protocolOf, List.take_append_of_le_length h4]
  rfl

theorem lengthWord_append (rest : Bytes) : lengthWord (f.bytes ++ rest) = f.length := by
  have h8 : UsbDevicePacketHeaderV1.SIZE ≤ f.bytes.length := f.eight_le
  have h4 : 4 ≤ f.bytes.length := Nat.le_trans (by decide) h8
  have hword : 4 ≤ (f.bytes.drop 4).length := by
    rw [List.length_drop]
    unfold UsbDevicePacketHeaderV1.SIZE at h8
    omega
  have heq : lengthWord (f.bytes ++ rest) = lengthWord f.bytes := by
    rw [lengthWord, lengthWord, List.drop_append_of_le_length h4,
      List.take_append_of_le_length hword]
  rw [heq, f.length_eq]
  rfl

theorem ofBytes_append {p : UsbDevicePacketProtocol} (h : p.headerSize ≤ f.length)
    (rest : Bytes) :
    UsbDevicePacketHeader.ofBytes p (f.bytes ++ rest) = .ofBytes p f.bytes := by
  have htake : (f.bytes ++ rest).take p.headerSize = f.bytes.take p.headerSize :=
    List.take_append_of_le_length h
  cases p with
  | version => exact congrArg (fun b => UsbDevicePacketHeader.v1 (.decode b)) htake
  | tcp | setup | control =>
    exact congrArg (fun b => UsbDevicePacketHeader.v2 (.decode b)) htake

end Frame

namespace UsbDevicePacket

variable (codec : TcpCodec) {f : Frame} {p : UsbDevicePacketProtocol}

/-- An unknown protocol is refused behind the first 8 bytes. -/
theorem fromReader_unknown (h : f.protocol = none) (rest : Bytes) :
    ∃ e, fromReader codec (f.bytes ++ rest) =
      (.err (.invalidData e), (f.bytes ++ rest).drop UsbDevicePacketHeaderV1.SIZE) := by
  have h8 : UsbDevicePacketHeaderV1.SIZE ≤ (f.bytes ++ rest).length := by
    rw [List.length_append]
    exact Nat.le_trans f.eight_le (Nat.le_add_right _ _)
  have hp := (f.protocolOf_append rest).trans h
  unfold protocolOf at hp
  have hnew (s : Bytes) : ∃ e, UsbDevicePacketProtocol.new ((f.bytes ++ rest).take 4) s =
      (.err (.invalidData e), s) := by
    unfold UsbDevicePacketProtocol.new
    rw [hp]
    exact ⟨_, rfl⟩
  obtain ⟨e, he⟩ := hnew ((f.bytes ++ rest).drop UsbDevicePacketHeaderV1.SIZE)
  refine ⟨e, ?_⟩
  rw [fromReader_eq]
  apply bind_of_err
  unfold UsbDevicePacketHeader.fromReader
  rw [bind_of_ok (readExact_of_le h8), take_protocol _ (by decide), bind_of_err he]

theorem fromReader_header (h : f.protocol = some p) {rest : Bytes}
    (hlen : p.headerSize ≤ f.length+rest.length) :
    fromReader codec (f.bytes ++ rest) =
      (tcpFromReader codec p >>= readPayload (.ofBytes p (f.bytes ++ rest)) p)
        ((f.bytes ++ rest).drop p.headerSize) := by
  have hp := (f.protocolOf_append rest).trans h
  have hle : p.headerSize ≤ (f.bytes ++ rest).length := by
    rw [List.length_append]
    exact hlen
  rw [fromReader_eq, bind_of_ok (UsbDevicePacketHeader.fromReader_of_known hle hp),
    bind_of_ok (UsbDevicePacketHeader.getProtocol_ofBytes hp _)]

/-- The stream ends inside the header. -/
theorem fromReader_cut (h : f.protocol = some p) {rest : Bytes}
    (hlen : f.length+rest.length < p.headerSize) :
    fromReader codec (f.bytes ++ rest) = (.err (.io .unexpectedEof), []) := by
  have hp := (f.protocolOf_append rest).trans h
  have h8 : UsbDevicePacketHeaderV1.SIZE ≤ (f.bytes ++ rest).length := by
    rw [List.length_append]
    exact Nat.le_trans f.eight_le (Nat.le_add_right _ _)
  have hlt : (f.bytes ++ rest).length < p.headerSize := by
    rw [List.length_append]
    exact hlen
  rw [fromReader_eq]
  exact bind_of_err (UsbDevicePacketHeader.fromReader_of_cut h8 hlt hp) _

theorem totalHeaderLen_ofBytes (p : UsbDevicePacketProtocol) (b : Bytes)
    (tcpHdr : Option TcpHeader) :
    totalHeaderLen (.ofBytes p b) tcpHdr =
      p.headerSize+(tcpHdr.map TcpHeader.headerLen).getD 0 := by
  cases p <;> rfl

/-- A length word that does not cover the headers is refused where they end. -/
theorem readPayload_short {tcpHdr : Option TcpHeader} {rest s : Bytes}
    (h : f.length < p.headerSize+(tcpHdr.map TcpHeader.headerLen).getD 0) :
    ∃ e, readPayload (.ofBytes p (f.bytes ++ rest)) p tcpHdr s = (.err (.invalidData e), s) := by
  unfold readPayload
  rw [totalHeaderLen_ofBytes, getLength_ofBytes, f.lengthWord_append, if_pos h]
  exact ⟨_, rfl⟩

/-- Otherwise the payload is what is left of the frame. -/
theorem readPayload_takes {tcpHdr : Option TcpHeader} {rest payload : Bytes} {n : ℕ}
    (hn : n = p.headerSize+(tcpHdr.map TcpHeader.headerLen).getD 0)
    (hpayload : payload = f.bytes.drop n) (h : n ≤ f.length) :
    readPayload (.ofBytes p (f.bytes ++ rest)) p tcpHdr (payload ++ rest) =
      (UsbDevicePacketPayload.decode payload p >>= fun payload =>
        pure ⟨.ofBytes p (f.bytes ++ rest), tcpHdr, payload⟩) rest := by
  have hlen : f.length-n = payload.length := by
    rw [hpayload, List.length_drop]
    rfl
  unfold readPayload
  rw [totalHeaderLen_ofBytes, getLength_ofBytes, f.lengthWord_append, ← hn,
    if_neg (Nat.not_lt.mpr h), hlen, bind_of_ok (takes_readExact payload rest)]

theorem decode_ok {payload : Bytes}
    (h : p = .version → payload.length = UsbDevicePacketVersion.SIZE) :
    ∃ q, ∀ s, UsbDevicePacketPayload.decode payload p s = (.ok q, s) := by
  cases p with
  | version =>
    have hdecode : UsbDevicePacketVersion.decode payload = pure (.ofBytes payload) :=
      if_pos (h rfl)
    refine ⟨.version (.ofBytes payload), fun s => ?_⟩
    simp only [UsbDevicePacketPayload.decode, hdecode]
    rfl
  | control => rcases payload with _ | ⟨e, _ | ⟨m, ms⟩⟩ <;> exact ⟨_, fun s => rfl⟩
  | setup | tcp => exact ⟨_, fun s => rfl⟩

/-- A frame whose headers are whole and leave a payload for its protocol. -/
theorem takes_of_headers (tcpHdr : Option TcpHeader) {n : ℕ} (h : f.protocol = some p)
    (hn : n = p.headerSize+(tcpHdr.map TcpHeader.headerLen).getD 0) (hlen : n ≤ f.length)
    (htcp : ∀ rest, tcpFromReader codec p (f.bytes.drop p.headerSize ++ rest) =
      (.ok tcpHdr, f.bytes.drop n ++ rest))
    (hversion : p = .version → (f.bytes.drop n).length = UsbDevicePacketVersion.SIZE) :
    ∃ payload, Framing.Takes (fromReader codec) f.bytes
      (.ok ⟨.ofBytes p f.bytes, tcpHdr, payload⟩) := by
  obtain ⟨payload, hpayload⟩ := decode_ok hversion
  refine ⟨payload, fun rest => ?_⟩
  have hheader : p.headerSize ≤ f.length := by omega
  rw [fromReader_header codec h (by omega), List.drop_append_of_le_length hheader,
    bind_of_ok (htcp rest), readPayload_takes hn rfl hlen, bind_of_ok (hpayload rest),
    f.ofBytes_append hheader]
  rfl

theorem tcpFromReader_ok {s rest : Bytes} {h : TcpHeader} (hs : TcpHeader.MIN_LEN ≤ s.length)
    (hslice : codec.fromSlice (s.take TcpHeader.MIN_LEN) = .ok (h, rest)) :
    tcpFromReader codec .tcp s = (.ok (some h), s.drop TcpHeader.MIN_LEN) := by
  unfold tcpFromReader
  rw [if_pos rfl, bind_of_ok (readExact_of_le hs)]
  simp only [hslice]
  rfl

theorem tcpFromReader_error {s : Bytes} {e : String} (hs : TcpHeader.MIN_LEN ≤ s.length)
    (hslice : codec.fromSlice (s.take TcpHeader.MIN_LEN) = .error e) :
    tcpFromReader codec .tcp s = (.err (.tcpHeaderSlice e), s.drop TcpHeader.MIN_LEN) := by
  unfold tcpFromReader
  rw [if_pos rfl, bind_of_ok (readExact_of_le hs)]
  simp only [hslice]
  rfl

/-- Of 20 bytes, etherparse takes only a header without options. -/
theorem headerLen_of_splits {codec : TcpCodec} (hc : codec.Splits) {s rest : Bytes}
    {h : TcpHeader} (hs : TcpHeader.MIN_LEN ≤ s.length)
    (hslice : codec.fromSlice (s.take TcpHeader.MIN_LEN) = .ok (h, rest)) :
    h.headerLen = TcpHeader.MIN_LEN := by
  have hsum := hc _ _ _ hslice
  rw [List.length_take, Nat.min_eq_left hs, TcpHeader.headerLen] at hsum
  rw [TcpHeader.headerLen]
  omega

/-- A frame that has just the packet its protocol asks for is taken whole. -/
theorem takes_of_acceptable {codec : TcpCodec} (hc : codec.Splits)
    (h : f.acceptable codec = true) :
    ∃ packet, packet.isRst = f.resets codec ∧
      Framing.Takes (fromReader codec) f.bytes (.ok packet) := by
  unfold Frame.acceptable at h
  split at h
  · cases h
  next hp =>
    have hlen : f.length = UsbDevicePacketHeaderV1.SIZE+UsbDevicePacketVersion.SIZE :=
      beq_iff_eq.mp h
    obtain ⟨payload, ht⟩ := takes_of_headers codec none hp rfl
      (by rw [hlen]; exact Nat.le_add_right _ _) (fun rest => rfl)
      (fun _ => by rw [List.length_drop]; exact Nat.sub_eq_of_eq_add hlen)
    exact ⟨_, by rw [Frame.resets, hp]; rfl, ht⟩
  next hp =>
    obtain ⟨payload, ht⟩ := takes_of_headers codec none hp rfl
      (of_decide_eq_true h) (fun rest => rfl) (fun hv => by cases hv)
    exact ⟨_, by rw [Frame.resets, hp]; rfl, ht⟩
  next hp =>
    obtain ⟨payload, ht⟩ := takes_of_headers codec none hp rfl
      (of_decide_eq_true h) (fun rest => rfl) (fun hv => by cases hv)
    exact ⟨_, by rw [Frame.resets, hp]; rfl, ht⟩
  next hp =>
    simp only [Bool.and_eq_true, decide_eq_true_eq] at h
    obtain ⟨hlen, hparses⟩ := h
    have h16 : UsbDevicePacketHeaderV2.SIZE ≤ f.length := Nat.le_trans (by decide) hlen
    have h20 : TcpHeader.MIN_LEN ≤ (f.bytes.drop UsbDevicePacketHeaderV2.SIZE).length := by
      rw [List.length_drop]
      exact Nat.le_sub_of_add_le' hlen
    -- the header that etherparse finds in the first 20 bytes
    obtain ⟨hdr, after, hslice⟩ := f.exists_of_parses hparses
    have hhdr := headerLen_of_splits hc h20 hslice
    have hn : UsbDevicePacket.HEADERS_LEN_V2 =
        UsbDevicePacketHeaderV2.SIZE+((some hdr).map TcpHeader.headerLen).getD 0 := by
      rw [Option.map_some, Option.getD_some, hhdr]
      rfl
    have htcp (rest : Bytes) :
        tcpFromReader codec .tcp (f.bytes.drop UsbDevicePacketHeaderV2.SIZE ++ rest) =
          (.ok (some hdr), f.bytes.drop HEADERS_LEN_V2 ++ rest) := by
      rw [tcpFromReader_ok codec (by rw [List.length_append]; omega)
        (by rw [List.take_append_of_le_length h20]; exact hslice),
        List.drop_append_of_le_length h20, List.drop_drop]
      rfl
    obtain ⟨payload, ht⟩ := takes_of_headers codec (some hdr) hp hn hlen htcp
      (fun hv => by cases hv)
    have hresets : f.resets codec = hdr.rst := by
      rw [Frame.resets, hp, hslice]
      rfl
    exact ⟨_, hresets.symm ▸ rfl, ht⟩

/-- A version of another size faults. -/
theorem fromReader_version (h : f.protocol = some .version) (ha : f.acceptable codec = false)
    (rest : Bytes) : (fromReader codec (f.bytes ++ rest)).1 = .fault := by
  have h8 : UsbDevicePacketHeaderV1.SIZE ≤ f.length := f.eight_le
  have hlen : f.length ≠ UsbDevicePacketHeaderV1.SIZE+UsbDevicePacketVersion.SIZE := by
    simp only [Frame.acceptable, h] at ha
    exact beq_eq_false_iff_ne.mp ha
  have hsize :
      (f.bytes.drop UsbDevicePacketHeaderV1.SIZE).length ≠ UsbDevicePacketVersion.SIZE := by
    have hlen' : f.bytes.length ≠ UsbDevicePacketHeaderV1.SIZE+UsbDevicePacketVersion.SIZE := hlen
    have h8' : UsbDevicePacketHeaderV1.SIZE ≤ f.bytes.length := h8
    rw [List.length_drop]
    omega
  have hdecode : UsbDevicePacketPayload.decode (f.bytes.drop UsbDevicePacketHeaderV1.SIZE) .version
      rest = (.fault, rest) := by
    have hfault : UsbDevicePacketVersion.decode (f.bytes.drop UsbDevicePacketHeaderV1.SIZE) =
        Parse.fault := if_neg hsize
    simp only [UsbDevicePacketPayload.decode, hfault]
    rfl
  rw [fromReader_header codec h (Nat.le_trans h8 (Nat.le_add_right _ _)),
    show UsbDevicePacketProtocol.headerSize .version = UsbDevicePacketHeaderV1.SIZE from rfl,
    List.drop_append_of_le_length h8,
    bind_of_ok (rfl : tcpFromReader codec .version _ = (.ok none, _)),
    readPayload_takes (n := UsbDevicePacketHeaderV1.SIZE) rfl rfl h8, bind_of_fault hdecode]

/-- A header that is longer than its frame is refused behind its end. -/
theorem fromReader_short_header (h : f.protocol = some p) (htcp : p ≠ .tcp) {rest : Bytes}
    (hlen : p.headerSize ≤ f.length+rest.length) (hshort : f.length < p.headerSize) :
    ∃ e, fromReader codec (f.bytes ++ rest) =
      (.err (.invalidData e), (f.bytes ++ rest).drop p.headerSize) := by
  have hnone (s : Bytes) : tcpFromReader codec p s = (.ok none, s) := by
    unfold tcpFromReader
    rw [if_neg htcp]
    rfl
  rw [fromReader_header codec h hlen, bind_of_ok (hnone _)]
  exact readPayload_short hshort

/-- A TCP frame that is not acceptable is refused behind the first 36 bytes. -/
theorem fromReader_tcp {codec : TcpCodec} (hc : codec.Splits) (h : f.protocol = some .tcp)
    (ha : f.acceptable codec = false) {rest : Bytes}
    (hlen : HEADERS_LEN_V2 ≤ f.length+rest.length) :
    ∃ e, e.isIo = false ∧ fromReader codec (f.bytes ++ rest) =
      (.err e, (f.bytes ++ rest).drop HEADERS_LEN_V2) := by
  have h16 : UsbDevicePacketHeaderV2.SIZE ≤ f.length+rest.length := Nat.le_trans (by decide) hlen
  have h20 : TcpHeader.MIN_LEN ≤
      ((f.bytes ++ rest).drop UsbDevicePacketHeaderV2.SIZE).length := by
    rw [List.length_drop, List.length_append]
    exact Nat.le_sub_of_add_le' hlen
  rw [fromReader_header codec h h16]
  change ∃ e : ParseError, e.isIo = false ∧ (tcpFromReader codec .tcp >>= _)
    ((f.bytes ++ rest).drop UsbDevicePacketHeaderV2.SIZE) = _
  have hdrop : ((f.bytes ++ rest).drop UsbDevicePacketHeaderV2.SIZE).drop TcpHeader.MIN_LEN =
      (f.bytes ++ rest).drop HEADERS_LEN_V2 := List.drop_drop
  rcases hslice : codec.fromSlice (((f.bytes ++ rest).drop
    UsbDevicePacketHeaderV2.SIZE).take TcpHeader.MIN_LEN) with e | ⟨hdr, after⟩
  · have herr := tcpFromReader_error codec h20 hslice
    rw [hdrop] at herr
    exact ⟨_, rfl, bind_of_err herr _⟩
  · have hok := tcpFromReader_ok codec h20 hslice
    rw [hdrop] at hok
    have hhdr := headerLen_of_splits hc h20 hslice
    -- the TCP header can be parsed, so the frame is too short for it
    have hshort : f.length < HEADERS_LEN_V2 := by
      by_contra hle
      have hle : HEADERS_LEN_V2 ≤ f.length := Nat.not_lt.mp hle
      have h16' : UsbDevicePacketHeaderV2.SIZE ≤ f.bytes.length := Nat.le_trans (by decide) hle
      have h20' : TcpHeader.MIN_LEN ≤ (f.bytes.drop UsbDevicePacketHeaderV2.SIZE).length := by
        rw [List.length_drop]
        exact Nat.le_sub_of_add_le' hle
      rw [List.drop_append_of_le_length h16', List.take_append_of_le_length h20'] at hslice
      have hparses : f.parses codec = true := by
        rw [Frame.parses, Frame.tcpHeader, hslice]
        rfl
      simp only [Frame.acceptable, h, hle, hparses, decide_true, Bool.and_self,
        Bool.true_eq_false] at ha
    have hshort' : f.length < UsbDevicePacketProtocol.headerSize .tcp+
        ((some hdr).map TcpHeader.headerLen).getD 0 := by
      rw [Option.map_some, Option.getD_some, hhdr]
      exact hshort
    obtain ⟨e, he⟩ := readPayload_short hshort'
    rw [bind_of_ok hok]
    exact ⟨_, rfl, he⟩

/-- The stream ends inside the headers of a TCP frame. -/
theorem fromReader_tcp_cut (h : f.protocol = some .tcp) {rest : Bytes}
    (hlen : f.length+rest.length < HEADERS_LEN_V2) :
    fromReader codec (f.bytes ++ rest) = (.err (.io .unexpectedEof), []) := by
  by_cases h16 : UsbDevicePacketHeaderV2.SIZE ≤ f.length+rest.length
  · have hlt : ((f.bytes ++ rest).drop UsbDevicePacketHeaderV2.SIZE).length <
        TcpHeader.MIN_LEN := by
      rw [List.length_drop, List.length_append]
      exact Nat.sub_lt_left_of_lt_add h16 hlen
    rw [fromReader_header codec h h16]
    apply bind_of_err
    unfold tcpFromReader
    rw [if_pos rfl]
    exact bind_of_err (readExact_of_lt hlt) _
  · exact fromReader_cut codec h (Nat.not_le.mp h16)

/-- What a call makes of a frame with the rest of the stream behind it. -/
theorem fromReader_frame {codec : TcpCodec} (hc : codec.Splits) (f : Frame) (rest : Bytes) :
    (f.acceptable codec = true ∧ ∃ packet, packet.isRst = f.resets codec ∧
      Framing.Takes (fromReader codec) f.bytes (.ok packet)) ∨
    (f.acceptable codec = false ∧ ∃ e n, e.isIo = false ∧ f.refusedAt = some n ∧
      n ≤ f.length+rest.length ∧
      fromReader codec (f.bytes ++ rest) = (.err e, (f.bytes ++ rest).drop n)) ∨
    (f.acceptable codec = false ∧ (∀ n, f.refusedAt = some n → f.length+rest.length < n) ∧
      ((fromReader codec (f.bytes ++ rest)).1 = .fault ∨
        (fromReader codec (f.bytes ++ rest)).1 = .err (.io .unexpectedEof))) := by
  cases ha : f.acceptable codec with
  | true => exact .inl ⟨rfl, takes_of_acceptable hc ha⟩
  | false =>
    cases hp : f.protocol with
    | none =>
      obtain ⟨e, he⟩ := fromReader_unknown codec hp rest
      exact .inr (.inl ⟨rfl, _, _, rfl, by rw [Frame.refusedAt, hp],
        Nat.le_trans f.eight_le (Nat.le_add_right _ _), he⟩)
    | some p =>
      cases p with
      | version =>
        refine .inr (.inr ⟨rfl, fun n hn => ?_, .inl (fromReader_version codec hp ha rest)⟩)
        rw [Frame.refusedAt, hp] at hn
        cases hn
      | control | setup =>
        have hrefused : f.refusedAt = some UsbDevicePacketHeaderV2.SIZE := by
          rw [Frame.refusedAt, hp]
        have hshort : f.length < UsbDevicePacketHeaderV2.SIZE := by
          simpa only [Frame.acceptable, hp, decide_eq_false_iff_not, Nat.not_le] using ha
        -- the call reads the whole header before it finds the length too small
        by_cases hlen : UsbDevicePacketHeaderV2.SIZE ≤ f.length+rest.length
        · obtain ⟨e, he⟩ := fromReader_short_header codec hp (fun h => by cases h) hlen hshort
          exact .inr (.inl ⟨rfl, _, _, rfl, hrefused, hlen, he⟩)
        · refine .inr (.inr ⟨rfl, fun n hn => ?_, .inr ?_⟩)
          · rw [hrefused] at hn
            cases hn
            exact Nat.not_le.mp hlen
          · rw [fromReader_cut codec hp (Nat.not_le.mp hlen)]
      | tcp =>
        have hrefused : f.refusedAt = some HEADERS_LEN_V2 := by
          rw [Frame.refusedAt, hp]
        -- both headers are read before the error, or the stream ends inside them
        by_cases hlen : HEADERS_LEN_V2 ≤ f.length+rest.length
        · obtain ⟨e, hio, he⟩ := fromReader_tcp hc hp ha hlen
          exact .inr (.inl ⟨rfl, _, _, hio, hrefused, hlen, he⟩)
        · refine .inr (.inr ⟨rfl, fun n hn => ?_, .inr ?_⟩)
          · rw [hrefused] at hn
            cases hn
            exact Nat.not_le.mp hlen
          · rw [fromReader_tcp_cut codec hp (Nat.not_le.mp hlen)]

end UsbDevicePacket

namespace ReaderLoop

variable {codec : TcpCodec}

theorem startReaderLoop_ok {s : ReaderLoop} {b rest : Bytes} {packet : UsbDevicePacket}
    (h : UsbDevicePacket.fromReader codec b = (.ok packet, rest)) :
    s.startReaderLoop codec b = (s.handle packet).startReaderLoop codec rest := by
  rw [startReaderLoop]
  split <;> simp_all

theorem startReaderLoop_refused {s : ReaderLoop} {b rest : Bytes} {e : ParseError}
    (h : UsbDevicePacket.fromReader codec b = (.err e, rest)) (he : e.isIo = false) :
    s.startReaderLoop codec b = s.startReaderLoop codec rest := by
  rw [startReaderLoop]
  cases e with
  | io kind => cases he
  | plist _ | tcpHeaderSlice _ | invalidData _ => split <;> simp_all

theorem startReaderLoop_ends {s : ReaderLoop} {b : Bytes}
    (h : (UsbDevicePacket.fromReader codec b).1 = .fault ∨
      (UsbDevicePacket.fromReader codec b).1 = .err (.io .unexpectedEof)) :
    (s.startReaderLoop codec b).routed = s.routed := by
  rw [startReaderLoop]
  split <;> simp_all

theorem handle_routed (s : ReaderLoop) (packet : UsbDevicePacket) :
    (s.handle packet).routed =
      s.routed ++ (if packet.isRst then none else some packet).toList := by
  unfold handle
  cases packet.isRst <;> simp

/-- A call at the start of the frame that refuses it leaves just the rest. -/
def Rejoins (codec : TcpCodec) (f : Frame) (rest : Bytes) : Prop :=
  ∀ e after, e.isIo = false →
    UsbDevicePacket.fromReader codec (f.bytes ++ rest) = (.err e, after) → after = rest

/-- Wherever a frame is refused, the next call begins with the frame behind it,
and the router gets the packets of the frames that it would get of each alone. -/
structure Resynchronises (codec : TcpCodec) (fs : List Frame) : Prop where
  rejoins : ∀ pre f post, fs = pre ++ f :: post → Rejoins codec f (stream post)
  routed : ∀ s : ReaderLoop, (s.startReaderLoop codec (stream fs)).routed =
    s.routed ++ fs.filterMap (Frame.routedPacket codec)

theorem routedPacket_of_takes {f : Frame} {packet : UsbDevicePacket}
    (h : Framing.Takes (UsbDevicePacket.fromReader codec) f.bytes (.ok packet)) :
    f.routedPacket codec = if packet.isRst then none else some packet := by
  have halone := h []
  rw [List.append_nil] at halone
  rw [Frame.routedPacket, halone]

/-- A frame that is not acceptable gives the router nothing. -/
theorem routedPacket_of_not_acceptable (hc : codec.Splits) {f : Frame}
    (h : f.acceptable codec = false) : f.routedPacket codec = none := by
  have hframe := UsbDevicePacket.fromReader_frame hc f []
  rw [List.append_nil] at hframe
  rcases hframe with ⟨ha, -⟩ | ⟨-, e, n, -, -, -, he⟩ | ⟨-, -, hf | hio⟩
  · rw [h] at ha
    cases ha
  · rw [Frame.routedPacket, he]
  · rw [Frame.routedPacket, hf]
  · rw [Frame.routedPacket, hio]

theorem routedPacket_eq_none_iff (hc : codec.Splits) (f : Frame) :
    f.routedPacket codec = none ↔ f.routable codec = false := by
  cases ha : f.acceptable codec with
  | false =>
    simp only [routedPacket_of_not_acceptable hc ha, Frame.routable, ha, Bool.false_and]
  | true =>
    obtain ⟨packet, hrst, ht⟩ := UsbDevicePacket.takes_of_acceptable hc ha
    rw [routedPacket_of_takes ht, Frame.routable, ha, ← hrst]
    cases packet.isRst <;> simp

theorem filterMap_eq_nil_iff (hc : codec.Splits) (fs : List Frame) :
    fs.filterMap (Frame.routedPacket codec) = [] ↔ ∀ f ∈ fs, f.routable codec = false := by
  simp only [List.filterMap_eq_nil_iff, routedPacket_eq_none_iff hc]

/-- Bytes that a refused frame leaves are the rest of the stream exactly when it
ends where it is refused. -/
theorem drop_eq_iff {f : Frame} {rest : Bytes} {n : ℕ} (h : n ≤ f.length+rest.length) :
    (f.bytes ++ rest).drop n = rest ↔ f.length = n := by
  constructor
  · intro hdrop
    have hlen := congrArg List.length hdrop
    rw [List.length_drop, List.length_append] at hlen
    have hf : f.length = f.bytes.length := rfl
    omega
  · intro hn
    exact List.drop_left' hn

/-- What one call does to the loop, if refused frames are left behind whole. -/
theorem loop_frame (hc : codec.Splits) {f : Frame} {rest : Bytes} (h : Rejoins codec f rest) :
    (f.acceptable codec = true ∧ ∃ packet,
      (f.routedPacket codec = if packet.isRst then none else some packet) ∧ ∀ s : ReaderLoop,
        s.startReaderLoop codec (f.bytes ++ rest) = (s.handle packet).startReaderLoop codec rest) ∨
    (f.refusedAt = some f.length ∧ f.routedPacket codec = none ∧ ∀ s : ReaderLoop,
      s.startReaderLoop codec (f.bytes ++ rest) = s.startReaderLoop codec rest) ∨
    (f.acceptable codec = false ∧ (∀ n, f.refusedAt = some n → f.length+rest.length < n) ∧
      f.routedPacket codec = none ∧
      ∀ s : ReaderLoop, (s.startReaderLoop codec (f.bytes ++ rest)).routed = s.routed) := by
  rcases UsbDevicePacket.fromReader_frame hc f rest with
    ⟨ha, packet, -, ht⟩ | ⟨ha, e, n, he, hn, hle, hread⟩ | ⟨ha, hn, hend⟩
  · exact .inl ⟨ha, packet, routedPacket_of_takes ht, fun s => startReaderLoop_ok (ht rest)⟩
  · have hrest := h e _ he hread
    have hlen := (drop_eq_iff hle).mp hrest
    refine .inr (.inl ⟨by rw [hn, hlen], routedPacket_of_not_acceptable hc ha, fun s => ?_⟩)
    rw [startReaderLoop_refused hread he, hrest]
  · exact .inr (.inr ⟨ha, hn, routedPacket_of_not_acceptable hc ha, fun s =>
      startReaderLoop_ends hend⟩)

/-- Where no frame is left in its middle, the router gets nothing else. -/
theorem routed_prefix (hc : codec.Splits) (fs : List Frame)
    (h : ∀ pre f post, fs = pre ++ f :: post → Rejoins codec f (stream post)) :
    ∃ qs, qs <+: fs.filterMap (Frame.routedPacket codec) ∧ ∀ s : ReaderLoop,
      (s.startReaderLoop codec (stream fs)).routed = s.routed ++ qs := by
  induction fs with
  | nil =>
    refine ⟨[], List.nil_prefix, fun s => ?_⟩
    rw [List.append_nil]
    exact startReaderLoop_ends (.inr rfl)
  | cons f fs ih =>
    obtain ⟨hf, hfs⟩ := Framing.forall_split_cons.mp h
    obtain ⟨qs, hqs, hloop⟩ := ih hfs
    rw [stream_cons]
    rcases loop_frame hc hf with ⟨-, packet, hpacket, hs⟩ | ⟨-, hpacket, hs⟩ | ⟨-, -, -, hs⟩
    · refine ⟨(f.routedPacket codec).toList ++ qs, ?_, fun s => ?_⟩
      · rw [List.filterMap_cons]
        cases f.routedPacket codec with
        | none => exact hqs
        | some q => exact List.cons_prefix_cons.mpr ⟨rfl, hqs⟩
      · rw [hs, hloop, handle_routed, ← hpacket, List.append_assoc]
    · refine ⟨qs, ?_, fun s => ?_⟩
      · rw [List.filterMap_cons, hpacket]
        exact hqs
      · rw [hs, hloop]
    · refine ⟨[], List.nil_prefix, fun s => ?_⟩
      rw [hs, List.append_nil]

theorem rejoins_of_inStep (hc : codec.Splits) {f : Frame} {post : List Frame}
    (h : f.InStep codec post) : Rejoins codec f (stream post) := by
  intro e after he hread
  rcases UsbDevicePacket.fromReader_frame hc f (stream post) with
    ⟨-, packet, -, ht⟩ | ⟨ha, e', n, -, hn, hle, hread'⟩ | ⟨-, -, hend⟩
  · cases hread.symm.trans (ht (stream post))
  · have hlen : f.length = n := by
      rcases h with hacc | hlen | ⟨hcut, -⟩
      · rw [ha] at hacc
        cases hacc
      · exact Option.some.inj (hlen.symm.trans hn)
      · exact absurd hle (Nat.not_le.mpr (hcut n hn))
    cases hread.symm.trans hread'
    exact (drop_eq_iff hle).mpr hlen
  · rw [hread] at hend
    rcases hend with hend | hend
    · cases hend
    · cases hend
      cases he

theorem inStep_of_resynchronises (hc : codec.Splits) (fs : List Frame)
    (h : Resynchronises codec fs) :
    ∀ pre f post, fs = pre ++ f :: post → f.InStep codec post := by
  induction fs with
  | nil => exact fun pre f post hsplit => absurd hsplit (by simp)
  | cons f fs ih =>
    obtain ⟨hf, hfs⟩ := Framing.forall_split_cons.mp h.rejoins
    obtain ⟨qs, hqs, hloop⟩ := routed_prefix hc fs hfs
    have hrouted := h.routed start
    rw [stream_cons, List.filterMap_cons] at hrouted
    -- the loop routes the packets of the other frames too
    have htail (hq : qs = fs.filterMap (Frame.routedPacket codec)) : Resynchronises codec fs :=
      ⟨hfs, fun s => by rw [hloop, hq]⟩
    refine (Framing.forall_split_cons (P := Frame.InStep codec)).mpr ?_
    rcases loop_frame hc hf with
      ⟨ha, packet, hpacket, hs⟩ | ⟨hend, hpacket, hs⟩ | ⟨-, hcut, hpacket, hs⟩
    · refine ⟨.inl ha, ih (htail ?_)⟩
      rw [hs, hloop, handle_routed, ← hpacket] at hrouted
      cases hp : f.routedPacket codec <;> simpa [hp, start] using hrouted
    · refine ⟨.inr (.inl hend), ih (htail ?_)⟩
      rw [hs, hloop, hpacket] at hrouted
      exact List.append_cancel_left hrouted
    · rw [hs, hpacket] at hrouted
      have hnil : fs.filterMap (Frame.routedPacket codec) = [] :=
        List.self_eq_append_right.mp hrouted
      refine ⟨.inr (.inr ⟨hcut, (filterMap_eq_nil_iff hc fs).mp hnil⟩), ih (htail ?_)⟩
      rw [hnil] at hqs ⊢
      exact List.prefix_nil.mp hqs

theorem routed_of_inStep (hc : codec.Splits) (fs : List Frame)
    (h : ∀ pre f post, fs = pre ++ f :: post → f.InStep codec post) (s : ReaderLoop) :
    (s.startReaderLoop codec (stream fs)).routed =
      s.routed ++ fs.filterMap (Frame.routedPacket codec) := by
  induction fs generalizing s with
  | nil =>
    rw [List.filterMap_nil, List.append_nil]
    exact startReaderLoop_ends (.inr rfl)
  | cons f fs ih =>
    obtain ⟨hf, hfs⟩ := Framing.forall_split_cons.mp h
    rw [stream_cons, List.filterMap_cons]
    rcases loop_frame hc (rejoins_of_inStep hc hf) with
      ⟨-, packet, hpacket, hs⟩ | ⟨-, hpacket, hs⟩ | ⟨hna, hcut, hpacket, hs⟩
    · calc
        (s.startReaderLoop codec (f.bytes ++ stream fs)).routed
            = (s.handle packet).routed ++ fs.filterMap (Frame.routedPacket codec) := by
              rw [hs, ih hfs]
        _ = s.routed ++ ((f.routedPacket codec).toList ++
              fs.filterMap (Frame.routedPacket codec)) := by
              rw [handle_routed, ← hpacket, List.append_assoc]
        _ = _ := by cases f.routedPacket codec <;> rfl
    · rw [hs, ih hfs, hpacket]
    · rw [hs, hpacket]
      -- the loop has ended, and nothing more is for the router
      have hquiet : ∀ g ∈ fs, g.routable codec = false := by
        rcases hf with ha | hlen | ⟨-, hquiet⟩
        · rw [hna] at ha
          cases ha
        · exact absurd (hcut _ hlen) (Nat.not_lt.mpr (Nat.le_add_right _ _))
        · exact hquiet
      rw [(filterMap_eq_nil_iff hc fs).mpr hquiet, List.append_nil]

/-- The reader loop stays in step with a stream of frames exactly when each of
them is acceptable, or ends where it is refused, or leaves nothing to route. -/
theorem resynchronises_iff_inStep (hc : codec.Splits) (fs : List Frame) :
    Resynchronises codec fs ↔
      ∀ pre f post, fs = pre ++ f :: post → f.InStep codec post := by
  constructor
  · exact inStep_of_resynchronises hc fs
  · intro h
    exact ⟨fun pre f post hsplit => rejoins_of_inStep hc (h pre f post hsplit),
      routed_of_inStep hc fs h⟩

/-- A frame of an unknown protocol, with a setup packet for its payload. -/
def unknownFrame : Frame where
  bytes := [0, 0, 0, 3, 0, 0, 0, 25] ++ (buildSetup 0 0 [7]).encode tcpWire
  eight_le := by decide
  length_eq := by decide

theorem resynchronises_iff_inStep_unknown :
    Resynchronises tcpWire.toTcpCodec [unknownFrame] ↔
      ∀ pre f post, [unknownFrame] = pre ++ f :: post → f.InStep tcpWire.toTcpCodec post :=
  resynchronises_iff_inStep tcpWire_splits [unknownFrame]

/-- The payload of the refused frame is read as the next one. -/
theorem not_resynchronises_unknown :
    ¬ ∀ fs : List Frame, Resynchronises tcpWire.toTcpCodec fs := by
  intro h
  have hrest := (h [unknownFrame]).rejoins [] unknownFrame [] rfl _ _ rfl rfl
  exact absurd hrest (by decide)

end ReaderLoop

end Rusbmux
