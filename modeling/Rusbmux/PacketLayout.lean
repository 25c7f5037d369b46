import Rusbmux.ReaderLoop

/-! The packets that the two decoders of src/parser/device_mux/mod.rs accept. -/
namespace Rusbmux

open Parse

theorem Parse.bind_eq_ok_iff {α β : Type} {m : Parse α} {f : α → Parse β} {s r : Bytes} {b : β} :
    (m >>= f) s = (.ok b, r) ↔ ∃ a t, m s = (.ok a, t) ∧ f a t = (.ok b, r) := by
  rcases hm : m s with ⟨a | e | _, t⟩
  · rw [bind_of_ok hm]
    constructor
    · intro h
      exact ⟨a, t, rfl, h⟩
    · rintro ⟨_, _, ⟨⟩, h⟩
      exact h
  · rw [bind_of_err hm]
    simp only [Prod.mk.injEq, reduceCtorEq, false_and, exists_false]
  · rw [bind_of_fault hm]
    simp only [Prod.mk.injEq, reduceCtorEq, false_and, exists_false]

theorem Parse.ok_eq_ok_iff {α : Type} {a b : α} {s r : Bytes} :
    ((.ok a, s) : Outcome α × Bytes) = (.ok b, r) ↔ b = a ∧ r = s := by
  constructor
  · rintro ⟨⟩
    exact ⟨rfl, rfl⟩
  · rintro ⟨rfl, rfl⟩
    rfl

/-- What etherparse documents: `from_slice` takes a header off the front of its
slice, whatever is behind it. -/
def TcpCodec.TakesHeader (codec : TcpCodec) : Prop :=
  ∀ s h rest, codec.fromSlice s = .ok (h, rest) → ∃ front, s = front ++ rest ∧
    front.length = h.headerLen ∧ ∀ t, codec.fromSlice (front ++ t) = .ok (h, t)

theorem TcpCodec.TakesHeader.splits {codec : TcpCodec} (hc : codec.TakesHeader) :
    codec.Splits := by
  intro s h rest hs
  obtain ⟨front, hfront, hlen, -⟩ := hc s h rest hs
  rw [hfront, List.length_append, hlen]

theorem getD_take {i n : ℕ} (h : i < n) (s : Bytes) : (s.take n).getD i 0 = s.getD i 0 := by
  rw [List.getD_eq_getElem?_getD, List.getElem?_take_of_lt h, ← List.getD_eq_getElem?_getD]

theorem TcpHeader.ofBytes_take {n : ℕ} (h : MIN_LEN ≤ n) (s : Bytes) :
    ofBytes (s.take n) n = ofBytes s n := by
  have hfield (i j : ℕ) (hij : i+j ≤ n) :
      ((s.take n).drop i).take j = (s.drop i).take j := by
    rw [List.drop_take, List.take_take, Nat.min_eq_left (by omega)]
  unfold MIN_LEN at h
  unfold ofBytes
  rw [hfield 2 2 (by omega), hfield 4 4 (by omega), hfield 8 4 (by omega),
    hfield 14 2 (by omega), hfield 16 2 (by omega), hfield 18 2 (by omega),
    getD_take (by omega : 12 < n), getD_take (by omega : 13 < n), List.take_take, List.take_take,
    Nat.min_eq_left (by omega), Nat.min_self]

theorem tcpWire_takesHeader : tcpWire.TakesHeader := by
  intro s h rest hs
  rw [tcpWire_fromSlice] at hs
  dsimp only [TcpHeader.fromSlice] at hs
  split_ifs at hs with hshort hmin
  cases hs
  generalize hn : (s.getD 12 0 >>> 4).toNat*4 = n at *
  have hle : n ≤ s.length := by omega
  have hlen : (s.take n).length = n := List.length_take_of_le hle
  refine ⟨s.take n, (List.take_append_drop n s).symm, ?_, fun t => ?_⟩
  · simp only [TcpHeader.headerLen, TcpHeader.ofBytes, List.length_drop, hlen]
    omega
  · have htake : (s.take n ++ t).take n = s.take n := List.take_left' hlen
    have h12 : 12 < n := Nat.lt_of_lt_of_le (by decide) (Nat.not_lt.mp hmin)
    have hword : ((s.take n ++ t).getD 12 0 >>> 4).toNat*4 = n := by
      rw [← getD_take h12, htake, getD_take h12, hn]
    have hge : n ≤ (s.take n ++ t).length := by
      rw [List.length_append, hlen]
      exact Nat.le_add_right _ _
    have hnot : ¬((s.take n ++ t).length < TcpHeader.MIN_LEN ∨ (s.take n ++ t).length < n) := by
      omega
    rw [tcpWire_fromSlice]
    simp only [TcpHeader.fromSlice, hword, if_neg hnot, if_neg hmin, List.drop_left' hlen]
    rw [← TcpHeader.ofBytes_take (Nat.not_lt.mp hmin), htake,
      TcpHeader.ofBytes_take (Nat.not_lt.mp hmin)]

/-- What `decode` makes of a payload that it does not fault on. -/
def UsbDevicePacketPayload.ofBytes (protocol : UsbDevicePacketProtocol) (payload : Bytes) :
    UsbDevicePacketPayload :=
  match protocol with
  | .version => .version (.ofBytes payload)
  | .control => match payload with
    | [] => .error none none
    | [e] => .error (some e) none
    | e :: message => .error (some e) (some (Utf8Lossy.decode message))
  | .setup | .tcp => .bytes payload

theorem UsbDevicePacketPayload.decode_eq_ok_iff {payload s r : Bytes}
    {protocol : UsbDevicePacketProtocol} {q : UsbDevicePacketPayload} :
    decode payload protocol s = (.ok q, r) ↔
      (protocol = .version → payload.length = UsbDevicePacketVersion.SIZE) ∧
        q = ofBytes protocol payload ∧ r = s := by
  cases protocol with
  | version =>
    simp only [decode, ofBytes, true_imp_iff]
    by_cases hsize : payload.length = UsbDevicePacketVersion.SIZE
    · have hdecode : UsbDevicePacketVersion.decode payload = pure (.ofBytes payload) :=
        if_pos hsize
      rw [hdecode]
      simp only [hsize, true_and]
      exact ok_eq_ok_iff
    · have hfault : UsbDevicePacketVersion.decode payload = Parse.fault := if_neg hsize
      rw [hfault]
      simp only [hsize, false_and, iff_false]
      rintro ⟨⟩
  | control =>
    simp only [reduceCtorEq, false_imp_iff, true_and]
    rcases payload with _ | ⟨e, _ | ⟨m, ms⟩⟩ <;> exact ok_eq_ok_iff
  | setup | tcp =>
    simp only [reduceCtorEq, false_imp_iff, true_and]
    exact ok_eq_ok_iff

namespace UsbDevicePacketHeader

variable {b r : Bytes} {header : UsbDevicePacketHeader}

/-- The bytes of a header that a decoder takes. -/
def Taken (b : Bytes) (header : UsbDevicePacketHeader) (r : Bytes) : Prop :=
  ∃ p, protocolOf b = some p ∧ p.headerSize ≤ b.length ∧ header = ofBytes p b ∧
    r = b.drop p.headerSize

theorem taken_of_ok {p : UsbDevicePacketProtocol} (hp : protocolOf b = some p)
    (hle : p.headerSize ≤ b.length)
    (h : ((.ok (ofBytes p b), b.drop p.headerSize) : Outcome UsbDevicePacketHeader × Bytes) =
      (.ok header, r)) : Taken b header r := by
  cases h
  exact ⟨p, hp, hle, rfl, rfl⟩

theorem fromSlice_eq_ok_iff : fromSlice b = (.ok header, r) ↔ Taken b header r := by
  constructor
  · intro h
    by_cases h4 : 4 ≤ b.length
    · cases hp : protocolOf b with
      | none =>
        obtain ⟨e, he⟩ := fromSlice_of_unknown h4 hp
        cases he.symm.trans h
      | some p =>
        by_cases hle : p.headerSize ≤ b.length
        · exact taken_of_ok hp hle ((fromSlice_of_known hle hp).symm.trans h)
        · cases (fromSlice_of_cut h4 (Nat.not_le.mp hle) hp).symm.trans h
    · obtain ⟨e, he⟩ := fromSlice_of_short (Nat.not_le.mp h4)
      cases he.symm.trans h
  · rintro ⟨p, hp, hle, rfl, rfl⟩
    exact fromSlice_of_known hle hp

theorem fromReader_eq_ok_iff : fromReader b = (.ok header, r) ↔ Taken b header r := by
  constructor
  · intro h
    by_cases h8 : UsbDevicePacketHeaderV1.SIZE ≤ b.length
    · cases hp : protocolOf b with
      | none =>
        obtain ⟨e, t, he⟩ := fromReader_of_unknown h8 hp
        cases he.symm.trans h
      | some p =>
        by_cases hle : p.headerSize ≤ b.length
        · exact taken_of_ok hp hle ((fromReader_of_known hle hp).symm.trans h)
        · cases (fromReader_of_cut h8 (Nat.not_le.mp hle) hp).symm.trans h
    · cases (fromReader_of_short (Nat.not_le.mp h8)).symm.trans h
  · rintro ⟨p, hp, hle, rfl, rfl⟩
    exact fromReader_of_known hle hp

end UsbDevicePacketHeader

namespace UsbDevicePacket

variable {codec : TcpCodec} {b s r : Bytes} {p : UsbDevicePacketProtocol}
  {header : UsbDevicePacketHeader} {tcpHdr : Option TcpHeader} {q : UsbDevicePacket}

/-- The TCP header that is taken off the bytes behind a packet's header. -/
def TcpTaken (codec : TcpCodec) (p : UsbDevicePacketProtocol) (s : Bytes)
    (tcpHdr : Option TcpHeader) (r : Bytes) : Prop :=
  p ≠ .tcp ∧ tcpHdr = none ∧ r = s ∨
    p = .tcp ∧ ∃ h, tcpHdr = some h ∧ codec.fromSlice s = .ok (h, r)

def NoOptions (tcpHdr : Option TcpHeader) : Prop := ∀ h, tcpHdr = some h → h.options = []

theorem tcpFromSlice_eq_ok_iff : tcpFromSlice codec (.ofBytes p b) p s = (.ok tcpHdr, r) ↔
    TcpTaken codec p s tcpHdr r := by
  by_cases hp : p = .tcp
  · subst hp
    have hv2 : (UsbDevicePacketHeader.ofBytes .tcp b).isV2 = true := rfl
    unfold tcpFromSlice TcpTaken
    rw [if_pos ⟨rfl, hv2⟩, bind_of_ok (rfl : Parse.left s = (.ok s, s))]
    simp only [ne_eq, not_true_eq_false, false_and, false_or, true_and]
    rcases hslice : codec.fromSlice s with e | ⟨h, t⟩
    · simp only [reduceCtorEq, and_false, exists_false, iff_false]
      rintro ⟨⟩
    · constructor
      · rintro ⟨⟩
        exact ⟨h, rfl, rfl⟩
      · rintro ⟨_, rfl, ⟨⟩⟩
        rfl
  · unfold tcpFromSlice TcpTaken
    rw [if_neg fun hc => hp hc.1]
    simp only [hp, ne_eq, not_false_eq_true, true_and, false_and, or_false]
    exact ok_eq_ok_iff

theorem rest_of_takesHeader (hc : codec.TakesHeader) {h : TcpHeader}
    (hs : codec.fromSlice s = .ok (h, r)) :
    h.headerLen ≤ s.length ∧ r = s.drop h.headerLen := by
  obtain ⟨front, hfront, hlen, -⟩ := hc _ _ _ hs
  rw [hfront, ← hlen, List.length_append, List.drop_left]
  exact ⟨Nat.le_add_right _ _, rfl⟩

/-- The first 20 bytes are the header of a slice exactly when it has no options. -/
theorem fromSlice_take_iff (hc : codec.TakesHeader) {h : TcpHeader} :
    (TcpHeader.MIN_LEN ≤ s.length ∧
      ∃ t, codec.fromSlice (s.take TcpHeader.MIN_LEN) = .ok (h, t)) ↔
      h.options = [] ∧ codec.fromSlice s = .ok (h, s.drop TcpHeader.MIN_LEN) := by
  constructor
  · rintro ⟨hle, t, ht⟩
    have hlen := headerLen_of_splits hc.splits hle ht
    obtain ⟨front, hfront, hfrontLen, htakes⟩ := hc _ _ _ ht
    have htake : (s.take TcpHeader.MIN_LEN).length = TcpHeader.MIN_LEN :=
      List.length_take_of_le hle
    -- the header has at least 20 bytes, so it is all of them
    have hnil : t = [] := by
      apply List.eq_nil_of_length_eq_zero
      rw [hfront, List.length_append, hfrontLen, hlen] at htake
      omega
    rw [hnil, List.append_nil] at hfront
    refine ⟨List.eq_nil_of_length_eq_zero ?_, ?_⟩
    · unfold TcpHeader.headerLen at hlen
      omega
    · have hs := htakes (s.drop TcpHeader.MIN_LEN)
      rwa [← hfront, List.take_append_drop] at hs
  · rintro ⟨hopt, hs⟩
    obtain ⟨front, hfront, hfrontLen, htakes⟩ := hc _ _ _ hs
    have hlen : front.length = TcpHeader.MIN_LEN := by
      rw [hfrontLen, TcpHeader.headerLen, hopt]
      rfl
    have htake : s.take TcpHeader.MIN_LEN = front := by
      rw [hfront]
      exact List.take_left' hlen
    refine ⟨?_, [], ?_⟩
    · rw [hfront, List.length_append, hlen]
      exact Nat.le_add_right _ _
    · have hs := htakes []
      rwa [List.append_nil, ← htake] at hs

theorem tcpFromReader_eq_ok_iff (hc : codec.TakesHeader) :
    tcpFromReader codec p s = (.ok tcpHdr, r) ↔ TcpTaken codec p s tcpHdr r ∧ NoOptions tcpHdr := by
  by_cases hp : p = .tcp
  · subst hp
    simp only [TcpTaken, ne_eq, not_true_eq_false, false_and, false_or, true_and]
    constructor
    · intro h
      by_cases hle : TcpHeader.MIN_LEN ≤ s.length
      · rcases hslice : codec.fromSlice (s.take TcpHeader.MIN_LEN) with e | ⟨hdr, t⟩
        · cases (tcpFromReader_error codec hle hslice).symm.trans h
        · obtain ⟨hopt, hs⟩ := (fromSlice_take_iff hc).mp ⟨hle, t, hslice⟩
          -- the reader goes on behind 20 bytes, which is behind this header
          cases (tcpFromReader_ok codec hle hslice).symm.trans h
          refine ⟨⟨hdr, rfl, hs⟩, ?_⟩
          rintro _ ⟨⟩
          exact hopt
      · have hshort : tcpFromReader codec .tcp s = (.err (.io .unexpectedEof), []) :=
          bind_of_err (readExact_of_lt (Nat.not_le.mp hle)) _
        cases hshort.symm.trans h
    · rintro ⟨⟨hdr, rfl, hs⟩, hopt⟩
      have hlen : hdr.headerLen = TcpHeader.MIN_LEN := by
        rw [TcpHeader.headerLen, hopt hdr rfl]
        rfl
      obtain ⟨-, rfl⟩ := rest_of_takesHeader hc hs
      rw [hlen] at hs ⊢
      obtain ⟨hle, t, ht⟩ := (fromSlice_take_iff hc).mpr ⟨hopt hdr rfl, hs⟩
      exact tcpFromReader_ok codec hle ht
  · have hnone : tcpFromReader codec p s = (.ok none, s) := by
      unfold tcpFromReader
      rw [if_neg hp]
      rfl
    rw [hnone, ok_eq_ok_iff]
    simp only [TcpTaken, hp, ne_eq, not_false_eq_true, true_and, false_and, or_false]
    constructor
    · rintro ⟨rfl, rfl⟩
      exact ⟨⟨rfl, rfl⟩, fun h hh => by cases hh⟩
    · exact And.left

/-- The end of `from_slice`, once it has all headers. -/
def slicePayload (header : UsbDevicePacketHeader) (protocol : UsbDevicePacketProtocol)
    (consumed : ℕ) (tcpHdr : Option TcpHeader) : Parse UsbDevicePacket := do
  let headerLen := totalHeaderLen header tcpHdr
  let totalLength := header.getLength.toNat
  if totalLength < headerLen then Parse.throw (lengthError totalLength headerLen)
  else do
    let payloadLen := totalLength-headerLen
    let s ← Parse.left
    if s.length < payloadLen then
      let available := s.length+consumed
      Parse.throw (.invalidData
        s!"packet length {totalLength} exceeds remaining slice length {available}")
    else do
      let payload ← Parse.prefixOf payloadLen
      Parse.advance payloadLen
      let payload ← UsbDevicePacketPayload.decode payload protocol
      pure ⟨header, tcpHdr, payload⟩

theorem fromSlice_eq : fromSlice codec = Parse.left >>= fun orig =>
    UsbDevicePacketHeader.fromSlice >>= fun header => header.getProtocol >>= fun protocol =>
      Parse.left >>= fun s => tcpFromSlice codec header protocol >>=
        slicePayload header protocol (orig.length-s.length) := rfl

/-- The payload that is taken off the bytes behind all headers. -/
def PayloadTaken (header : UsbDevicePacketHeader) (p : UsbDevicePacketProtocol)
    (tcpHdr : Option TcpHeader) (s : Bytes) (q : UsbDevicePacket) (r : Bytes) : Prop :=
  ∃ n, header.getLength.toNat = totalHeaderLen header tcpHdr+n ∧ n ≤ s.length ∧
    (p = .version → n = UsbDevicePacketVersion.SIZE) ∧
    q = ⟨header, tcpHdr, .ofBytes p (s.take n)⟩ ∧ r = s.drop n

theorem PayloadTaken.bounds (h : PayloadTaken header p tcpHdr s q r) :
    totalHeaderLen header tcpHdr ≤ header.getLength.toNat ∧
      header.getLength.toNat-totalHeaderLen header tcpHdr ≤ s.length := by
  obtain ⟨n, hn, hle, -⟩ := h
  omega

/-- The payload is decoded from the bytes that the length word leaves for it. -/
theorem decode_payload_iff {n : ℕ} (hn : n ≤ s.length)
    (hlen : header.getLength.toNat = totalHeaderLen header tcpHdr+n) :
    (UsbDevicePacketPayload.decode (s.take n) p >>= fun payload =>
      (pure ⟨header, tcpHdr, payload⟩ : Parse UsbDevicePacket)) (s.drop n) = (.ok q, r) ↔
      PayloadTaken header p tcpHdr s q r := by
  rw [bind_eq_ok_iff]
  constructor
  · rintro ⟨payload, t, hdecode, ⟨⟩⟩
    obtain ⟨hversion, rfl, rfl⟩ := UsbDevicePacketPayload.decode_eq_ok_iff.mp hdecode
    rw [List.length_take_of_le hn] at hversion
    exact ⟨n, hlen, hn, hversion, rfl, rfl⟩
  · rintro ⟨m, hm, hle, hversion, rfl, rfl⟩
    obtain rfl : m = n := by omega
    refine ⟨_, _, UsbDevicePacketPayload.decode_eq_ok_iff.mpr ⟨?_, rfl, rfl⟩, rfl⟩
    rwa [List.length_take_of_le hn]

theorem slicePayload_eq_ok_iff {consumed : ℕ} :
    slicePayload header p consumed tcpHdr s = (.ok q, r) ↔ PayloadTaken header p tcpHdr s q r := by
  unfold slicePayload
  by_cases hshort : header.getLength.toNat < totalHeaderLen header tcpHdr
  · rw [if_pos hshort]
    refine iff_of_false (fun h => by cases h) fun h => ?_
    exact absurd h.bounds.1 (Nat.not_le.mpr hshort)
  · rw [if_neg hshort, bind_of_ok (rfl : Parse.left s = (.ok s, s))]
    by_cases hcut : s.length < header.getLength.toNat-totalHeaderLen header tcpHdr
    · rw [if_pos hcut]
      refine iff_of_false (fun h => by cases h) fun h => ?_
      exact absurd h.bounds.2 (Nat.not_le.mpr hcut)
    · have hle := Nat.not_lt.mp hcut
      rw [if_neg hcut, bind_of_ok (prefixOf_of_le hle), bind_of_ok (advance_of_le hle)]
      exact decode_payload_iff hle (by omega)

theorem readPayload_eq_ok_iff :
    readPayload header p tcpHdr s = (.ok q, r) ↔ PayloadTaken header p tcpHdr s q r := by
  unfold readPayload
  by_cases hshort : header.getLength.toNat < totalHeaderLen header tcpHdr
  · rw [if_pos hshort]
    refine iff_of_false (fun h => by cases h) fun h => ?_
    exact absurd h.bounds.1 (Nat.not_le.mpr hshort)
  · rw [if_neg hshort]
    by_cases hle : header.getLength.toNat-totalHeaderLen header tcpHdr ≤ s.length
    · rw [bind_of_ok (readExact_of_le hle)]
      exact decode_payload_iff hle (by omega)
    · rw [bind_of_err (readExact_of_lt (Nat.not_le.mp hle))]
      exact iff_of_false (fun h => by cases h) fun h => hle h.bounds.2

/-- The bytes of all headers. -/
def headersLen (p : UsbDevicePacketProtocol) (tcpHdr : Option TcpHeader) : ℕ :=
  p.headerSize+(tcpHdr.map TcpHeader.headerLen).getD 0

/-- The bytes begin with a whole packet of the protocol, with that TCP header. -/
structure Layout (codec : TcpCodec) (b : Bytes) (p : UsbDevicePacketProtocol)
    (tcpHdr : Option TcpHeader) : Prop where
  protocol_eq : protocolOf b = some p
  tcp : TcpTaken codec p (b.drop p.headerSize) tcpHdr (b.drop (headersLen p tcpHdr))
  headers_le : headersLen p tcpHdr ≤ lengthWord b
  length_le : lengthWord b ≤ b.length
  version : p = .version → lengthWord b = headersLen p tcpHdr+UsbDevicePacketVersion.SIZE

/-- The packet at the front of the bytes. -/
def packetOf (b : Bytes) (p : UsbDevicePacketProtocol) (tcpHdr : Option TcpHeader) :
    UsbDevicePacket where
  header := .ofBytes p b
  tcpHdr := tcpHdr
  payload := .ofBytes p ((b.take (lengthWord b)).drop (headersLen p tcpHdr))

theorem tcpTaken_drop (hc : codec.TakesHeader) (hle : p.headerSize ≤ b.length)
    (h : TcpTaken codec p (b.drop p.headerSize) tcpHdr r) :
    headersLen p tcpHdr ≤ b.length ∧ r = b.drop (headersLen p tcpHdr) := by
  rcases h with ⟨-, rfl, rfl⟩ | ⟨-, h, rfl, hs⟩
  · exact ⟨hle, rfl⟩
  · obtain ⟨hlen, hr⟩ := rest_of_takesHeader hc hs
    rw [List.length_drop] at hlen
    rw [List.drop_drop] at hr
    refine ⟨?_, hr⟩
    simp only [headersLen, Option.map_some, Option.getD_some]
    omega

theorem payloadTaken_drop_iff (hle : headersLen p tcpHdr ≤ b.length) :
    PayloadTaken (.ofBytes p b) p tcpHdr (b.drop (headersLen p tcpHdr)) q r ↔
      headersLen p tcpHdr ≤ lengthWord b ∧ lengthWord b ≤ b.length ∧
        (p = .version → lengthWord b = headersLen p tcpHdr+UsbDevicePacketVersion.SIZE) ∧
        q = packetOf b p tcpHdr ∧ r = b.drop (lengthWord b) := by
  have hpacket (n : ℕ) (hn : lengthWord b = headersLen p tcpHdr+n) :
      packetOf b p tcpHdr =
        ⟨.ofBytes p b, tcpHdr, .ofBytes p ((b.drop (headersLen p tcpHdr)).take n)⟩ := by
    rw [packetOf, List.drop_take, hn, Nat.add_sub_cancel_left]
  unfold PayloadTaken
  rw [getLength_ofBytes, totalHeaderLen_ofBytes, ← headersLen]
  constructor
  · rintro ⟨n, hn, hlen, hversion, rfl, rfl⟩
    rw [List.length_drop] at hlen
    refine ⟨by omega, by omega, fun hp => by rw [hn, hversion hp], (hpacket n hn).symm, ?_⟩
    rw [List.drop_drop, hn]
  · rintro ⟨hheaders, hlen, hversion, rfl, rfl⟩
    obtain ⟨n, hn⟩ := Nat.exists_eq_add_of_le hheaders
    refine ⟨n, hn, ?_, fun hp => ?_, hpacket n hn, ?_⟩
    · rw [List.length_drop]
      omega
    · have hp := hversion hp
      omega
    · rw [List.drop_drop, hn]

theorem layout_of_taken (hc : codec.TakesHeader) (hp : protocolOf b = some p)
    (hle : p.headerSize ≤ b.length) (htcp : TcpTaken codec p (b.drop p.headerSize) tcpHdr s)
    (hpayload : PayloadTaken (.ofBytes p b) p tcpHdr s q r) :
    Layout codec b p tcpHdr ∧ q = packetOf b p tcpHdr ∧ r = b.drop (lengthWord b) := by
  obtain ⟨hheaders, rfl⟩ := tcpTaken_drop hc hle htcp
  obtain ⟨hword, hlen, hversion, hq, hr⟩ := (payloadTaken_drop_iff hheaders).mp hpayload
  exact ⟨⟨hp, htcp, hword, hlen, hversion⟩, hq, hr⟩

theorem Layout.headerSize_le (hl : Layout codec b p tcpHdr) : p.headerSize ≤ b.length :=
  Nat.le_trans (Nat.le_add_right _ _) (Nat.le_trans hl.headers_le hl.length_le)

theorem Layout.payloadTaken (hl : Layout codec b p tcpHdr) :
    PayloadTaken (.ofBytes p b) p tcpHdr (b.drop (headersLen p tcpHdr)) (packetOf b p tcpHdr)
      (b.drop (lengthWord b)) :=
  (payloadTaken_drop_iff (Nat.le_trans hl.headers_le hl.length_le)).mpr
    ⟨hl.headers_le, hl.length_le, hl.version, rfl, rfl⟩

/-- `from_slice` accepts exactly the packets that are laid out so. -/
theorem fromSlice_eq_ok_iff (hc : codec.TakesHeader) : fromSlice codec b = (.ok q, r) ↔
    ∃ p tcpHdr, Layout codec b p tcpHdr ∧ q = packetOf b p tcpHdr ∧
      r = b.drop (lengthWord b) := by
  rw [fromSlice_eq, bind_of_ok (rfl : Parse.left b = (.ok b, b)), bind_eq_ok_iff]
  constructor
  · rintro ⟨header, s, hheader, h⟩
    obtain ⟨p, hp, hle, rfl, rfl⟩ := UsbDevicePacketHeader.fromSlice_eq_ok_iff.mp hheader
    rw [bind_of_ok (UsbDevicePacketHeader.getProtocol_ofBytes hp _),
      bind_of_ok (rfl : Parse.left _ = (.ok _, _)), bind_eq_ok_iff] at h
    obtain ⟨tcpHdr, t, htcp, hpayload⟩ := h
    exact ⟨p, tcpHdr, layout_of_taken hc hp hle (tcpFromSlice_eq_ok_iff.mp htcp)
      (slicePayload_eq_ok_iff.mp hpayload)⟩
  · rintro ⟨p, tcpHdr, hl, rfl, rfl⟩
    refine ⟨_, _, UsbDevicePacketHeader.fromSlice_eq_ok_iff.mpr
      ⟨p, hl.protocol_eq, hl.headerSize_le, rfl, rfl⟩, ?_⟩
    rw [bind_of_ok (UsbDevicePacketHeader.getProtocol_ofBytes hl.protocol_eq _),
      bind_of_ok (rfl : Parse.left _ = (.ok _, _)),
      bind_of_ok (tcpFromSlice_eq_ok_iff.mpr hl.tcp)]
    exact slicePayload_eq_ok_iff.mpr hl.payloadTaken

/-- `from_reader` accepts those of them whose TCP header has no options. -/
theorem fromReader_eq_ok_iff (hc : codec.TakesHeader) : fromReader codec b = (.ok q, r) ↔
    ∃ p tcpHdr, Layout codec b p tcpHdr ∧ NoOptions tcpHdr ∧ q = packetOf b p tcpHdr ∧
      r = b.drop (lengthWord b) := by
  rw [fromReader_eq, bind_eq_ok_iff]
  constructor
  · rintro ⟨header, s, hheader, h⟩
    obtain ⟨p, hp, hle, rfl, rfl⟩ := UsbDevicePacketHeader.fromReader_eq_ok_iff.mp hheader
    rw [bind_of_ok (UsbDevicePacketHeader.getProtocol_ofBytes hp _), bind_eq_ok_iff] at h
    obtain ⟨tcpHdr, t, htcp, hpayload⟩ := h
    obtain ⟨htaken, hopt⟩ := (tcpFromReader_eq_ok_iff hc).mp htcp
    obtain ⟨hl, hq, hr⟩ := layout_of_taken hc hp hle htaken (readPayload_eq_ok_iff.mp hpayload)
    exact ⟨p, tcpHdr, hl, hopt, hq, hr⟩
  · rintro ⟨p, tcpHdr, hl, hopt, rfl, rfl⟩
    refine ⟨_, _, UsbDevicePacketHeader.fromReader_eq_ok_iff.mpr
      ⟨p, hl.protocol_eq, hl.headerSize_le, rfl, rfl⟩, ?_⟩
    rw [bind_of_ok (UsbDevicePacketHeader.getProtocol_ofBytes hl.protocol_eq _),
      bind_of_ok ((tcpFromReader_eq_ok_iff hc).mpr ⟨hl.tcp, hopt⟩)]
    exact readPayload_eq_ok_iff.mpr hl.payloadTaken

/-- Bytes are laid out in one way at most. -/
theorem Layout.unique (hl : Layout codec b p tcpHdr) {p' : UsbDevicePacketProtocol}
    {tcpHdr' : Option TcpHeader} (hl' : Layout codec b p' tcpHdr') :
    p = p' ∧ tcpHdr = tcpHdr' := by
  obtain rfl : p = p' := Option.some.inj (hl.protocol_eq.symm.trans hl'.protocol_eq)
  refine ⟨rfl, ?_⟩
  rcases hl.tcp with ⟨hp, ht, -⟩ | ⟨hp, h, ht, hs⟩
  · rcases hl'.tcp with ⟨-, ht', -⟩ | ⟨hp', -⟩
    · rw [ht, ht']
    · exact absurd hp' hp
  · rcases hl'.tcp with ⟨hp', -⟩ | ⟨-, h', ht', hs'⟩
    · exact absurd hp hp'
    · rw [ht, ht', (Prod.mk.inj (Except.ok.inj (hs.symm.trans hs'))).1]

/-- The decoders accept the same bytes, make the same packet of them, and have
then consumed as many bytes as its header says. -/
structure DecodersAgree (codec : TcpCodec) (b : Bytes) : Prop where
  accept : (∃ q r, fromSlice codec b = (.ok q, r)) ↔ ∃ q r, fromReader codec b = (.ok q, r)
  agree : ∀ q r q' r', fromSlice codec b = (.ok q, r) → fromReader codec b = (.ok q', r') →
    q = q' ∧ q.header.getLength.toNat+r.length = b.length ∧
      q'.header.getLength.toNat+r'.length = b.length

/-- A whole TCP packet whose TCP header is longer than 20 bytes. -/
def HasOptions (codec : TcpCodec) (b : Bytes) : Prop :=
  ∃ h, Layout codec b .tcp (some h) ∧ h.options ≠ []

theorem length_packetOf (hl : Layout codec b p tcpHdr) :
    (packetOf b p tcpHdr).header.getLength.toNat+(b.drop (lengthWord b)).length = b.length := by
  have hle := hl.length_le
  rw [packetOf, getLength_ofBytes, List.length_drop]
  omega

theorem Layout.noOptions_iff (hl : Layout codec b p tcpHdr) :
    NoOptions tcpHdr ↔ ¬ HasOptions codec b := by
  constructor
  · rintro hopt ⟨h, hl', hne⟩
    obtain ⟨-, rfl⟩ := hl.unique hl'
    exact hne (hopt h rfl)
  · rintro hno h rfl
    by_contra hne
    rcases hl.tcp with ⟨-, ht, -⟩ | ⟨rfl, -⟩
    · cases ht
    · exact hno ⟨h, hl, hne⟩

/-- The decoders agree on everything but TCP headers with options, which only
`from_slice` accepts. -/
theorem decodersAgree_iff (hc : codec.TakesHeader) (b : Bytes) :
    DecodersAgree codec b ↔ ¬ HasOptions codec b := by
  constructor
  · rintro hagree ⟨h, hl, hne⟩
    obtain ⟨q, r, hread⟩ := hagree.accept.mp
      ⟨_, _, (fromSlice_eq_ok_iff hc).mpr ⟨.tcp, some h, hl, rfl, rfl⟩⟩
    obtain ⟨p', tcpHdr', hl', hopt, -⟩ := (fromReader_eq_ok_iff hc).mp hread
    -- the layout is the same one, with the options it has
    exact hl'.noOptions_iff.mp hopt ⟨h, hl, hne⟩
  · intro hno
    refine ⟨⟨?_, ?_⟩, ?_⟩
    · rintro ⟨q, r, h⟩
      obtain ⟨p, tcpHdr, hl, hq, hr⟩ := (fromSlice_eq_ok_iff hc).mp h
      exact ⟨q, r, (fromReader_eq_ok_iff hc).mpr
        ⟨p, tcpHdr, hl, hl.noOptions_iff.mpr hno, hq, hr⟩⟩
    · rintro ⟨q, r, h⟩
      obtain ⟨p, tcpHdr, hl, -, hq, hr⟩ := (fromReader_eq_ok_iff hc).mp h
      exact ⟨q, r, (fromSlice_eq_ok_iff hc).mpr ⟨p, tcpHdr, hl, hq, hr⟩⟩
    · intro q r q' r' h h'
      obtain ⟨p, tcpHdr, hl, rfl, rfl⟩ := (fromSlice_eq_ok_iff hc).mp h
      obtain ⟨p', tcpHdr', hl', -, rfl, rfl⟩ := (fromReader_eq_ok_iff hc).mp h'
      obtain ⟨rfl, rfl⟩ := hl.unique hl'
      exact ⟨rfl, length_packetOf hl, length_packetOf hl⟩

/-- A TCP packet whose TCP header takes 24 bytes, without a payload. -/
def optionsPacket : Bytes :=
  be32 6 ++ be32 40 ++ be32 DEVICE_MUX_HEADER_V2_MAGIC ++ be16 1 ++ be16 1 ++
    (be16 62078 ++ be16 1 ++ be32 7 ++ be32 9 ++ [0x60, 0x10] ++ be16 512 ++ be16 0 ++ be16 0 ++
      [1, 1, 1, 0])

theorem decodersAgree_iff_options : DecodersAgree tcpWire.toTcpCodec optionsPacket ↔
    ¬ HasOptions tcpWire.toTcpCodec optionsPacket :=
  decodersAgree_iff tcpWire_takesHeader optionsPacket

/-- The first 20 bytes of the TCP header are not a header of their own. -/
theorem options_not_agreed : ¬ ∀ codec : TcpCodec, codec.TakesHeader →
    ∀ b : Bytes, DecodersAgree codec b := by
  intro h
  have hagree := h tcpWire.toTcpCodec tcpWire_takesHeader optionsPacket
  have hread : ∃ e, fromReader tcpWire.toTcpCodec optionsPacket = (.err e, [1, 1, 1, 0]) :=
    ⟨_, rfl⟩
  obtain ⟨e, he⟩ := hread
  obtain ⟨q, r, hok⟩ := hagree.accept.mp ⟨_, _, rfl⟩
  cases he.symm.trans hok

end UsbDevicePacket

end Rusbmux
