import Rusbmux.MuxEncode

/-! A TCP header on the wire, for the cases that need a codec of their own. -/
namespace Rusbmux

/-- A byte of flags, the first one lowest. -/
def flagsByte (b₀ b₁ b₂ b₃ b₄ b₅ b₆ b₇ : Bool) : UInt8 :=
  b₀.toUInt8 ||| b₁.toUInt8 <<< 1 ||| b₂.toUInt8 <<< 2 ||| b₃.toUInt8 <<< 3 |||
    b₄.toUInt8 <<< 4 ||| b₅.toUInt8 <<< 5 ||| b₆.toUInt8 <<< 6 ||| b₇.toUInt8 <<< 7

def flagAt (b i : UInt8) : Bool := (b >>> i) &&& 1 == 1

/-- The data offset in words, and the flag that shares its byte. -/
def offsetByte (words : UInt8) (ns : Bool) : UInt8 := words <<< 4 ||| ns.toUInt8

namespace TcpHeader

def toBytes (h : TcpHeader) : Bytes :=
  be16 h.sourcePort ++ be16 h.destinationPort ++ be32 h.sequenceNumber ++
    be32 h.acknowledgmentNumber ++
    [offsetByte (UInt8.ofNat (5+h.options.length/4)) h.ns,
      flagsByte h.fin h.syn h.rst h.psh h.ack h.urg h.ece h.cwr] ++
    be16 h.windowSize ++ be16 h.checksum ++ be16 h.urgentPointer ++ h.options

/-- The header at the front of the bytes, whose options end at byte `n`. -/
def ofBytes (s : Bytes) (n : ℕ) : TcpHeader where
  sourcePort := u16be (s.take 2)
  destinationPort := u16be ((s.drop 2).take 2)
  sequenceNumber := u32be ((s.drop 4).take 4)
  acknowledgmentNumber := u32be ((s.drop 8).take 4)
  ns := flagAt (s.getD 12 0) 0
  fin := flagAt (s.getD 13 0) 0
  syn := flagAt (s.getD 13 0) 1
  rst := flagAt (s.getD 13 0) 2
  psh := flagAt (s.getD 13 0) 3
  ack := flagAt (s.getD 13 0) 4
  urg := flagAt (s.getD 13 0) 5
  ece := flagAt (s.getD 13 0) 6
  cwr := flagAt (s.getD 13 0) 7
  windowSize := u16be ((s.drop 14).take 2)
  checksum := u16be ((s.drop 16).take 2)
  urgentPointer := u16be ((s.drop 18).take 2)
  options := (s.take n).drop MIN_LEN

def fromSlice (s : Bytes) : Except String (TcpHeader × Bytes) :=
  let n := (s.getD 12 0 >>> 4).toNat*4
  if s.length < MIN_LEN ∨ s.length < n then .error "not enough data for the TCP header"
  else if n < MIN_LEN then .error "data offset too small"
  else .ok (ofBytes s n, s.drop n)

end TcpHeader

def tcpWire : TcpWire where
  fromSlice := TcpHeader.fromSlice
  toBytes := TcpHeader.toBytes

theorem tcpWire_fromSlice (s : Bytes) : tcpWire.fromSlice s = TcpHeader.fromSlice s := rfl

theorem tcpWire_toBytes (h : TcpHeader) : tcpWire.toBytes h = h.toBytes := rfl

theorem flagsByte_flagAt : ∀ b₀ b₁ b₂ b₃ b₄ b₅ b₆ b₇ : Bool,
    let b := flagsByte b₀ b₁ b₂ b₃ b₄ b₅ b₆ b₇
    flagAt b 0 = b₀ ∧ flagAt b 1 = b₁ ∧ flagAt b 2 = b₂ ∧ flagAt b 3 = b₃ ∧ flagAt b 4 = b₄ ∧
      flagAt b 5 = b₅ ∧ flagAt b 6 = b₆ ∧ flagAt b 7 = b₇ := by
  decide +kernel

theorem offsetByte_flagAt : ∀ (words : Fin 16) (ns : Bool),
    (offsetByte (UInt8.ofNat words) ns >>> 4).toNat = words ∧
      flagAt (offsetByte (UInt8.ofNat words) ns) 0 = ns := by
  decide +kernel

/-- The options end at a word, and the data offset can say where. -/
def TcpHeader.Padded (h : TcpHeader) : Prop := 4 ∣ h.options.length ∧ h.options.length ≤ 40

theorem TcpHeader.offset_of_padded {h : TcpHeader} (hp : h.Padded) :
    (offsetByte (UInt8.ofNat (5+h.options.length/4)) h.ns >>> 4).toNat*4 = h.headerLen ∧
      flagAt (offsetByte (UInt8.ofNat (5+h.options.length/4)) h.ns) 0 = h.ns := by
  obtain ⟨⟨k, hk⟩, hle⟩ := hp
  have hlt : 5+h.options.length/4 < 16 := by omega
  obtain ⟨hwords, hns⟩ := offsetByte_flagAt ⟨5+h.options.length/4, hlt⟩ h.ns
  refine ⟨?_, hns⟩
  dsimp only at hwords
  rw [hwords, headerLen, MIN_LEN]
  omega

/-- A header, byte by byte. -/
theorem TcpHeader.toBytes_append (h : TcpHeader) (rest : Bytes) :
    h.toBytes ++ rest =
      be16 h.sourcePort ++ (be16 h.destinationPort ++ (be32 h.sequenceNumber ++
        (be32 h.acknowledgmentNumber ++ ([offsetByte (UInt8.ofNat (5+h.options.length/4)) h.ns,
          flagsByte h.fin h.syn h.rst h.psh h.ack h.urg h.ece h.cwr] ++
            (be16 h.windowSize ++ (be16 h.checksum ++ (be16 h.urgentPointer ++
              (h.options ++ rest)))))))) := by
  simp only [toBytes, List.append_assoc]

/-- A header is read back from its bytes. -/
theorem TcpHeader.ofBytes_toBytes {h : TcpHeader} (hp : h.Padded) (rest : Bytes) :
    ofBytes (h.toBytes ++ rest) h.headerLen = h := by
  obtain ⟨hf₀, hf₁, hf₂, hf₃, hf₄, hf₅, hf₆, hf₇⟩ :=
    flagsByte_flagAt h.fin h.syn h.rst h.psh h.ack h.urg h.ece h.cwr
  obtain ⟨-, hns⟩ := offset_of_padded hp
  have hoptions : ((h.toBytes ++ rest).take h.headerLen).drop MIN_LEN = h.options := by
    have htake : h.headerLen-MIN_LEN = h.options.length := Nat.add_sub_cancel_left _ _
    rw [List.drop_take, htake, toBytes_append]
    exact List.take_left
  have heq : ofBytes (h.toBytes ++ rest) h.headerLen = TcpHeader.mk
      (u16be (be16 h.sourcePort)) (u16be (be16 h.destinationPort))
      (u32be (be32 h.sequenceNumber)) (u32be (be32 h.acknowledgmentNumber))
      (flagAt (offsetByte (UInt8.ofNat (5+h.options.length/4)) h.ns) 0)
      (flagAt (flagsByte h.fin h.syn h.rst h.psh h.ack h.urg h.ece h.cwr) 0)
      (flagAt (flagsByte h.fin h.syn h.rst h.psh h.ack h.urg h.ece h.cwr) 1)
      (flagAt (flagsByte h.fin h.syn h.rst h.psh h.ack h.urg h.ece h.cwr) 2)
      (flagAt (flagsByte h.fin h.syn h.rst h.psh h.ack h.urg h.ece h.cwr) 3)
      (flagAt (flagsByte h.fin h.syn h.rst h.psh h.ack h.urg h.ece h.cwr) 4)
      (flagAt (flagsByte h.fin h.syn h.rst h.psh h.ack h.urg h.ece h.cwr) 5)
      (flagAt (flagsByte h.fin h.syn h.rst h.psh h.ack h.urg h.ece h.cwr) 6)
      (flagAt (flagsByte h.fin h.syn h.rst h.psh h.ack h.urg h.ece h.cwr) 7)
      (u16be (be16 h.windowSize)) (u16be (be16 h.checksum)) (u16be (be16 h.urgentPointer))
      (((h.toBytes ++ rest).take h.headerLen).drop MIN_LEN) := by
    rw [toBytes_append h rest]
    rfl
  rw [heq, hoptions]
  simp only [u16be_be16, u32be_be32, hns, hf₀, hf₁, hf₂, hf₃, hf₄, hf₅, hf₆, hf₇]

theorem TcpHeader.length_toBytes (h : TcpHeader) : h.toBytes.length = h.headerLen := by
  simp only [toBytes, be16, be32, headerLen, MIN_LEN, List.length_append, List.length_cons,
    List.length_nil]

/-- `from_slice` takes a header off the bytes of `to_bytes`. -/
theorem TcpHeader.fromSlice_toBytes {h : TcpHeader} (hp : h.Padded) (rest : Bytes) :
    fromSlice (h.toBytes ++ rest) = .ok (h, rest) := by
  have hlen := h.length_toBytes
  have hword : ((h.toBytes ++ rest).getD 12 0 >>> 4).toNat*4 = h.headerLen := by
    have hbyte : (h.toBytes ++ rest).getD 12 0 =
        offsetByte (UInt8.ofNat (5+h.options.length/4)) h.ns := by
      rw [h.toBytes_append rest]
      rfl
    rw [hbyte]
    exact (offset_of_padded hp).1
  have hmin : ¬h.headerLen < MIN_LEN := Nat.not_lt.mpr (Nat.le_add_right _ _)
  have hshort : ¬((h.toBytes ++ rest).length < MIN_LEN ∨
      (h.toBytes ++ rest).length < h.headerLen) := by
    rw [List.length_append, hlen]
    omega
  simp only [fromSlice, hword, if_neg hshort, if_neg hmin, ofBytes_toBytes hp,
    List.drop_left' hlen]

theorem tcpWire_lawful : tcpWire.Lawful where
  length_toBytes := TcpHeader.length_toBytes
  fromSlice_toBytes := by
    intro h rest hopt
    have hp : h.Padded := by
      rw [TcpHeader.Padded, hopt]
      exact ⟨Nat.dvd_zero 4, Nat.zero_le _⟩
    rw [tcpWire_toBytes, tcpWire_fromSlice, TcpHeader.fromSlice_toBytes hp rest]

/-- What etherparse documents: `from_slice` splits the slice behind the header. -/
def TcpCodec.Splits (codec : TcpCodec) : Prop :=
  ∀ s h rest, codec.fromSlice s = .ok (h, rest) → h.headerLen+rest.length = s.length

theorem tcpWire_splits : tcpWire.Splits := by
  intro s h rest hs
  rw [tcpWire_fromSlice] at hs
  dsimp only [TcpHeader.fromSlice] at hs
  split_ifs at hs with hshort hmin
  cases hs
  simp only [TcpHeader.headerLen, TcpHeader.ofBytes, List.length_drop, List.length_take]
  omega

end Rusbmux
