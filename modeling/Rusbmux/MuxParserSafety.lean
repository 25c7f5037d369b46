import Rusbmux.MuxParser

/-! When the decoders of src/parser/device_mux/mod.rs reach a fault. -/
namespace Rusbmux

namespace Parse

variable {α β : Type}

def Safe (m : Parse α) (s : Bytes) : Prop := (m s).1 ≠ .fault

theorem bind_of_ok {m : Parse α} {s rest : Bytes} {a : α} (h : m s = (.ok a, rest))
    (f : α → Parse β) : (m >>= f) s = f a rest := by
  simp only [Bind.bind, h]

theorem bind_of_err {m : Parse α} {s rest : Bytes} {e : ParseError} (h : m s = (.err e, rest))
    (f : α → Parse β) : (m >>= f) s = (.err e, rest) := by
  simp only [Bind.bind, h]

theorem bind_of_fault {m : Parse α} {s rest : Bytes} (h : m s = (.fault, rest))
    (f : α → Parse β) : (m >>= f) s = (.fault, rest) := by
  simp only [Bind.bind, h]

/-- A sequence is safe exactly when its first part is, and its second part is
wherever the first one leaves it. -/
theorem safe_bind_iff {m : Parse α} {f : α → Parse β} {s : Bytes} :
    Safe (m >>= f) s ↔ Safe m s ∧ ∀ a rest, m s = (.ok a, rest) → Safe (f a) rest := by
  rcases hm : m s with ⟨_ | _ | _, rest⟩
  · rename_i a
    simp only [Safe, bind_of_ok hm, hm]
    constructor
    · intro h
      refine ⟨by simp only [ne_eq, reduceCtorEq, not_false_eq_true], ?_⟩
      rintro b t ⟨⟩
      exact h
    · intro h
      exact h.2 a rest rfl
  · simp only [Safe, bind_of_err hm, hm]
    simp only [ne_eq, reduceCtorEq, not_false_eq_true, Prod.mk.injEq, false_and,
      IsEmpty.forall_iff, implies_true, and_self]
  · simp only [Safe, bind_of_fault hm, hm]
    simp only [ne_eq, not_true_eq_false, false_and]

theorem safe_bind {m : Parse α} {f : α → Parse β} {s : Bytes} (hm : Safe m s)
    (hf : ∀ a rest, Safe (f a) rest) : Safe (m >>= f) s :=
  safe_bind_iff.mpr ⟨hm, fun a rest _ => hf a rest⟩

theorem safe_bind_of_ok {m : Parse α} {s rest : Bytes} {a : α} (h : m s = (.ok a, rest))
    {f : α → Parse β} : Safe (m >>= f) s ↔ Safe (f a) rest := by
  unfold Safe
  rw [bind_of_ok h]

theorem safe_pure (a : α) (s : Bytes) : Safe (pure a) s := by
  intro h
  cases h

theorem safe_throw (e : ParseError) (s : Bytes) : Safe (throw e : Parse α) s := by
  intro h
  cases h

theorem safe_left (s : Bytes) : Safe left s := by
  intro h
  cases h

theorem safe_setLeft (r s : Bytes) : Safe (setLeft r) s := by
  intro h
  cases h

theorem safe_readExact (n : ℕ) (s : Bytes) : Safe (readExact n) s := by
  unfold Safe readExact
  split <;> simp only [ne_eq, reduceCtorEq, not_false_eq_true]

theorem safe_withCapacity_iff {maxAlloc n : ℕ} {s : Bytes} :
    Safe (withCapacity maxAlloc n) s ↔ n ≤ maxAlloc := by
  unfold Safe withCapacity
  split_ifs with h <;> simp only [h, ne_eq, reduceCtorEq, not_true_eq_false, not_false_eq_true]

theorem withCapacity_of_le {maxAlloc n : ℕ} (h : n ≤ maxAlloc) (s : Bytes) :
    withCapacity maxAlloc n s = (.ok (), s) := if_pos h

theorem prefixOf_of_le {n : ℕ} {s : Bytes} (h : n ≤ s.length) :
    prefixOf n s = (.ok (s.take n), s) := if_pos h

theorem advance_of_le {n : ℕ} {s : Bytes} (h : n ≤ s.length) :
    advance n s = (.ok (), s.drop n) := if_pos h

theorem readExact_of_le {n : ℕ} {s : Bytes} (h : n ≤ s.length) :
    readExact n s = (.ok (s.take n), s.drop n) := if_pos h

theorem readExact_of_lt {n : ℕ} {s : Bytes} (h : s.length < n) :
    readExact n s = (.err (.io .unexpectedEof), []) := if_neg (by omega)

end Parse

open Parse

theorem UsbDevicePacketVersion.decode_safe_iff (payload s : Bytes) :
    Safe (decode payload) s ↔ payload.length = SIZE := by
  unfold decode
  split
  · simp_all [safe_pure]
  · simp_all [Safe, Parse.fault]

theorem UsbDevicePacketPayload.decode_safe_iff (payload s : Bytes)
    (protocol : UsbDevicePacketProtocol) :
    Safe (decode payload protocol) s ↔
      (protocol = .version → payload.length = UsbDevicePacketVersion.SIZE) := by
  cases protocol with
  | version =>
    simp only [decode, safe_bind_iff, UsbDevicePacketVersion.decode_safe_iff, safe_pure,
      implies_true, and_true, true_imp_iff]
  | control =>
    have h : ∀ p : Bytes, Safe (decode p .control) s := by
      rintro (_ | ⟨e, _ | ⟨m, ms⟩⟩) <;> exact safe_pure _ _
    simp only [h, reduceCtorEq, IsEmpty.forall_iff]
  | setup => simp only [decode, safe_pure, reduceCtorEq, IsEmpty.forall_iff]
  | tcp => simp only [decode, safe_pure, reduceCtorEq, IsEmpty.forall_iff]

/-- The header of a packet, once it is known that all its bytes are there. -/
def UsbDevicePacketHeader.ofBytes (p : UsbDevicePacketProtocol) (b : Bytes) :
    UsbDevicePacketHeader :=
  match p with
  | .version => v1 (.decode (b.take UsbDevicePacketHeaderV1.SIZE))
  | .tcp | .setup | .control => v2 (.decode (b.take UsbDevicePacketHeaderV2.SIZE))

def UsbDevicePacketProtocol.headerSize : UsbDevicePacketProtocol → ℕ
  | .version => UsbDevicePacketHeaderV1.SIZE
  | .tcp | .setup | .control => UsbDevicePacketHeaderV2.SIZE

theorem UsbDevicePacketProtocol.eight_le_headerSize (p : UsbDevicePacketProtocol) :
    UsbDevicePacketHeaderV1.SIZE ≤ p.headerSize := by
  cases p <;> decide

/-- The protocol that the first four bytes name. -/
def protocolOf (b : Bytes) : Option UsbDevicePacketProtocol :=
  UsbDevicePacketProtocol.tryFrom (u32be (b.take 4))

theorem take_protocol (b : Bytes) {n : ℕ} (h : 4 ≤ n) : (b.take n).take 4 = b.take 4 := by
  rw [List.take_take, Nat.min_eq_left h]

theorem UsbDevicePacketProtocol.new_of_some {v s : Bytes} {p : UsbDevicePacketProtocol}
    (h : tryFrom (u32be v) = some p) : UsbDevicePacketProtocol.new v s = (.ok p, s) := by
  unfold UsbDevicePacketProtocol.new
  rw [h]
  rfl

theorem UsbDevicePacketProtocol.new_of_none {v s : Bytes} (h : tryFrom (u32be v) = none) :
    ∃ e, UsbDevicePacketProtocol.new v s = (.err e, s) := by
  unfold UsbDevicePacketProtocol.new
  rw [h]
  exact ⟨_, rfl⟩

namespace UsbDevicePacketHeader

variable {b : Bytes} {p : UsbDevicePacketProtocol}

theorem getProtocol_ofBytes (hp : protocolOf b = some p) (s : Bytes) :
    (ofBytes p b).getProtocol s = (.ok p, s) := by
  have h8 := take_protocol b (by decide : 4 ≤ UsbDevicePacketHeaderV1.SIZE)
  have h16 := take_protocol b (by decide : 4 ≤ UsbDevicePacketHeaderV2.SIZE)
  unfold protocolOf at hp
  cases p <;>
    simp only [getProtocol, ofBytes, UsbDevicePacketHeaderV1.decode,
      UsbDevicePacketHeaderV2.decode, h8, h16, hp] <;> rfl

theorem fromSlice_of_short (h : b.length < 4) : ∃ e, fromSlice b = (.err e, b) := by
  unfold fromSlice
  rw [bind_of_ok (rfl : Parse.left b = (.ok b, b)), if_pos h]
  exact ⟨_, rfl⟩

theorem fromSlice_of_unknown (h4 : 4 ≤ b.length) (hp : protocolOf b = none) :
    ∃ e, fromSlice b = (.err e, b) := by
  obtain ⟨e, he⟩ := UsbDevicePacketProtocol.new_of_none (s := b) hp
  unfold fromSlice
  rw [bind_of_ok (rfl : Parse.left b = (.ok b, b)), if_neg (by omega),
    bind_of_ok (prefixOf_of_le h4), bind_of_err he]
  exact ⟨_, rfl⟩

theorem fromSlice_of_known (h : p.headerSize ≤ b.length) (hp : protocolOf b = some p) :
    fromSlice b = (.ok (ofBytes p b), b.drop p.headerSize) := by
  have h8 : 8 ≤ b.length := Nat.le_trans p.eight_le_headerSize h
  unfold fromSlice
  rw [bind_of_ok (rfl : Parse.left b = (.ok b, b)), if_neg (by omega),
    bind_of_ok (prefixOf_of_le (by omega)),
    bind_of_ok (UsbDevicePacketProtocol.new_of_some hp)]
  cases p <;> exact bind_of_ok (prefixOf_of_le h) _ |>.trans (bind_of_ok (advance_of_le h) _)

theorem fromSlice_of_cut (h4 : 4 ≤ b.length) (h : b.length < p.headerSize)
    (hp : protocolOf b = some p) : fromSlice b = (.fault, b) := by
  unfold fromSlice
  rw [bind_of_ok (rfl : Parse.left b = (.ok b, b)), if_neg (by omega),
    bind_of_ok (prefixOf_of_le h4), bind_of_ok (UsbDevicePacketProtocol.new_of_some hp)]
  cases p <;> exact bind_of_fault (if_neg (Nat.not_le.mpr h)) _

theorem fromReader_of_short (h : b.length < UsbDevicePacketHeaderV1.SIZE) :
    fromReader b = (.err (.io .unexpectedEof), []) := by
  unfold fromReader
  exact bind_of_err (readExact_of_lt h) _

theorem fromReader_of_unknown (h : UsbDevicePacketHeaderV1.SIZE ≤ b.length)
    (hp : protocolOf b = none) : ∃ e rest, fromReader b = (.err e, rest) := by
  obtain ⟨e, he⟩ := UsbDevicePacketProtocol.new_of_none
    (s := b.drop UsbDevicePacketHeaderV1.SIZE) hp
  unfold fromReader
  rw [bind_of_ok (readExact_of_le h), take_protocol b (by decide), bind_of_err he]
  exact ⟨_, _, rfl⟩

theorem fromReader_of_known (h : p.headerSize ≤ b.length) (hp : protocolOf b = some p) :
    fromReader b = (.ok (ofBytes p b), b.drop p.headerSize) := by
  have h8 : UsbDevicePacketHeaderV1.SIZE ≤ b.length := Nat.le_trans p.eight_le_headerSize h
  have hmore (hle : UsbDevicePacketHeaderV2.SIZE ≤ b.length) :
      readExact (UsbDevicePacketHeaderV2.SIZE-UsbDevicePacketHeaderV1.SIZE)
          (b.drop UsbDevicePacketHeaderV1.SIZE) =
        (.ok ((b.drop 8).take 8), b.drop UsbDevicePacketHeaderV2.SIZE) := by
    rw [readExact_of_le]
    · rw [List.drop_drop]
      rfl
    · rw [List.length_drop]
      unfold UsbDevicePacketHeaderV2.SIZE UsbDevicePacketHeaderV1.SIZE at *
      omega
  have hjoin : b.take UsbDevicePacketHeaderV1.SIZE ++ (b.drop 8).take 8 =
      b.take UsbDevicePacketHeaderV2.SIZE := (List.take_add (i := 8) (j := 8)).symm
  unfold fromReader
  rw [bind_of_ok (readExact_of_le h8), take_protocol b (by decide),
    bind_of_ok (UsbDevicePacketProtocol.new_of_some hp)]
  cases p with
  | version => rfl
  | tcp | setup | control =>
    refine (bind_of_ok (hmore h) _).trans ?_
    rw [hjoin]
    rfl

theorem fromReader_of_cut (h8 : UsbDevicePacketHeaderV1.SIZE ≤ b.length)
    (h : b.length < p.headerSize) (hp : protocolOf b = some p) :
    fromReader b = (.err (.io .unexpectedEof), []) := by
  have hmore (hlt : b.length < UsbDevicePacketHeaderV2.SIZE) :
      readExact (UsbDevicePacketHeaderV2.SIZE-UsbDevicePacketHeaderV1.SIZE)
          (b.drop UsbDevicePacketHeaderV1.SIZE) = (.err (.io .unexpectedEof), []) := by
    apply readExact_of_lt
    rw [List.length_drop]
    unfold UsbDevicePacketHeaderV2.SIZE UsbDevicePacketHeaderV1.SIZE at *
    omega
  unfold fromReader
  rw [bind_of_ok (readExact_of_le h8), take_protocol b (by decide),
    bind_of_ok (UsbDevicePacketProtocol.new_of_some hp)]
  cases p with
  | version =>
    have hle : UsbDevicePacketHeaderV1.SIZE ≤ b.length := h8
    exact absurd h (Nat.not_lt.mpr hle)
  | tcp | setup | control => exact bind_of_err (hmore h) _

end UsbDevicePacketHeader

/-- The length word of a packet. -/
def lengthWord (b : Bytes) : ℕ := (u32be ((b.drop 4).take 4)).toNat

theorem getLength_ofBytes (p : UsbDevicePacketProtocol) (b : Bytes) :
    (UsbDevicePacketHeader.ofBytes p b).getLength.toNat = lengthWord b := by
  have h8 : ((b.take 8).drop 4).take 4 = (b.drop 4).take 4 := by
    rw [List.drop_take, List.take_take]
    rfl
  have h16 : ((b.take 16).drop 4).take 4 = (b.drop 4).take 4 := by
    rw [List.drop_take, List.take_take]
    rfl
  unfold lengthWord
  cases p with
  | version => exact congrArg (fun w => (u32be w).toNat) h8
  | tcp | setup | control => exact congrArg (fun w => (u32be w).toNat) h16

/-- A version packet whose payload, if it is all there, has the version's size. -/
def VersionSized (b : Bytes) : Prop :=
  lengthWord b < UsbDevicePacketHeaderV1.SIZE ∨ b.length < lengthWord b ∨
    lengthWord b = UsbDevicePacketHeaderV1.SIZE+UsbDevicePacketVersion.SIZE

/-- The inputs that name no known protocol, and those that hold the whole
header of the protocol they name and, for a version packet, a length word that
is refused or leaves exactly a version. -/
def WellSized (b : Bytes) : Prop :=
  4 ≤ b.length → ∀ p, protocolOf b = some p →
    p.headerSize ≤ b.length ∧ (p = .version → VersionSized b)

namespace UsbDevicePacket

variable (codec : TcpCodec)

theorem tcpFromSlice_safe (h : UsbDevicePacketHeader) (p : UsbDevicePacketProtocol)
    (s : Bytes) : Safe (tcpFromSlice codec h p) s := by
  unfold tcpFromSlice
  split
  · refine safe_bind (safe_left s) fun b s' => ?_
    split
    · exact safe_bind (safe_setLeft _ _) fun _ _ => safe_pure _ _
    · exact safe_throw _ _
  · exact safe_pure _ _

theorem tcpFromReader_safe (p : UsbDevicePacketProtocol) (s : Bytes) :
    Safe (tcpFromReader codec p) s := by
  unfold tcpFromReader
  split
  · refine safe_bind (safe_readExact _ s) fun b s' => ?_
    split
    · exact safe_pure _ _
    · exact safe_throw _ _
  · exact safe_pure _ _

theorem totalHeaderLen_version (b : Bytes) :
    totalHeaderLen (UsbDevicePacketHeader.ofBytes .version b) none =
      UsbDevicePacketHeaderV1.SIZE := rfl

/-- Cutting off the payload and decoding it, when all its bytes are there. -/
theorem payload_safe_iff {n : ℕ} {s : Bytes} (hn : n ≤ s.length)
    (p : UsbDevicePacketProtocol) (h : UsbDevicePacketHeader) (t : Option TcpHeader) :
    Safe (do
      let payload ← prefixOf n
      advance n
      let payload ← UsbDevicePacketPayload.decode payload p
      pure (UsbDevicePacket.mk h t payload)) s ↔
        (p = .version → n = UsbDevicePacketVersion.SIZE) := by
  rw [safe_bind_of_ok (prefixOf_of_le hn), safe_bind_of_ok (advance_of_le hn), safe_bind_iff,
    UsbDevicePacketPayload.decode_safe_iff, List.length_take, Nat.min_eq_left hn]
  simp only [safe_pure, implies_true, and_true]

/-- `from_slice` once it has the header of a packet. -/
theorem fromSlice_safe_of_known {b : Bytes} {p : UsbDevicePacketProtocol}
    (h : p.headerSize ≤ b.length) (hp : protocolOf b = some p) :
    Safe (fromSlice codec) b ↔ (p = .version → VersionSized b) := by
  have hrest : (b.drop p.headerSize).length = b.length-p.headerSize := List.length_drop
  unfold fromSlice
  rw [safe_bind_of_ok (rfl : Parse.left b = (.ok b, b)),
    safe_bind_of_ok (UsbDevicePacketHeader.fromSlice_of_known h hp),
    safe_bind_of_ok (UsbDevicePacketHeader.getProtocol_ofBytes hp _),
    safe_bind_of_ok (rfl : Parse.left (b.drop p.headerSize) = (.ok _, _))]
  by_cases hv : p = .version
  · -- no TCP header is cut off, and the payload is indexed unchecked
    subst hv
    have hsize : UsbDevicePacketProtocol.version.headerSize = UsbDevicePacketHeaderV1.SIZE := rfl
    rw [hsize] at h hrest ⊢
    rw [safe_bind_of_ok (rfl : tcpFromSlice codec (.ofBytes .version b) .version _ =
      (.ok none, _))]
    simp only [totalHeaderLen_version, getLength_ofBytes, true_imp_iff]
    unfold VersionSized
    split_ifs with hshort
    · -- the length word is refused
      simp only [safe_throw, hshort, true_or]
    · rw [safe_bind_of_ok (rfl : Parse.left (b.drop UsbDevicePacketHeaderV1.SIZE) = (.ok _, _))]
      split_ifs with hcut
      · -- the payload is not all there
        have : b.length < lengthWord b := by omega
        simp only [safe_throw, this, true_or, or_true]
      · rw [payload_safe_iff (by omega)]
        simp only [true_imp_iff]
        omega
  · -- every other protocol takes the payload whole
    simp only [hv, IsEmpty.forall_iff, iff_true]
    refine safe_bind (tcpFromSlice_safe codec _ p _) fun t s => ?_
    split
    · exact safe_throw _ _
    · rw [safe_bind_of_ok (rfl : Parse.left s = (.ok s, s))]
      split
      · exact safe_throw _ _
      · rename_i hcut
        rw [payload_safe_iff (Nat.not_lt.mp hcut)]
        exact fun hpv => absurd hpv hv

/-- `from_slice` is safe on exactly the well-sized inputs. -/
theorem fromSlice_safe_iff (b : Bytes) : Safe (fromSlice codec) b ↔ WellSized b := by
  have hleft : Parse.left b = (.ok b, b) := rfl
  unfold WellSized
  by_cases h4 : 4 ≤ b.length
  · cases hp : protocolOf b with
    | none =>
      obtain ⟨e, he⟩ := UsbDevicePacketHeader.fromSlice_of_unknown h4 hp
      unfold fromSlice Safe
      rw [bind_of_ok hleft, bind_of_err he]
      simp only [ne_eq, reduceCtorEq, not_false_eq_true, false_imp_iff, implies_true]
    | some p =>
      simp only [h4, Option.some.injEq, forall_eq', true_imp_iff]
      by_cases h : p.headerSize ≤ b.length
      · simp only [fromSlice_safe_of_known codec h hp, h, true_and]
      · -- the rest of a V2 header is split off without a check
        have hc := UsbDevicePacketHeader.fromSlice_of_cut h4 (Nat.not_le.mp h) hp
        unfold fromSlice Safe
        rw [bind_of_ok hleft, bind_of_fault hc]
        simp only [h, ne_eq, not_true_eq_false, false_and]
  · obtain ⟨e, he⟩ := UsbDevicePacketHeader.fromSlice_of_short (Nat.not_le.mp h4)
    unfold fromSlice Safe
    rw [bind_of_ok hleft, bind_of_err he]
    simp only [h4, ne_eq, reduceCtorEq, not_false_eq_true, false_imp_iff]

/-- `from_reader` once it has the header of a packet. -/
theorem fromReader_safe_of_known {b : Bytes} {p : UsbDevicePacketProtocol}
    (h : p.headerSize ≤ b.length) (hp : protocolOf b = some p) :
    Safe (fromReader codec) b ↔ (p = .version → VersionSized b) := by
  have hrest : (b.drop p.headerSize).length = b.length-p.headerSize := List.length_drop
  unfold fromReader
  rw [safe_bind_of_ok (UsbDevicePacketHeader.fromReader_of_known h hp),
    safe_bind_of_ok (UsbDevicePacketHeader.getProtocol_ofBytes hp _)]
  by_cases hv : p = .version
  · subst hv
    have hsize : UsbDevicePacketProtocol.version.headerSize = UsbDevicePacketHeaderV1.SIZE := rfl
    rw [hsize] at h hrest ⊢
    rw [safe_bind_of_ok (rfl : tcpFromReader codec .version _ = (.ok none, _))]
    simp only [totalHeaderLen_version, getLength_ofBytes, true_imp_iff]
    unfold VersionSized
    split_ifs with hshort
    · simp only [safe_throw, hshort, true_or]
    · -- the stream ends inside the payload, or all of it is read
      by_cases hcut : b.length < lengthWord b
      · have hlt : (b.drop UsbDevicePacketHeaderV1.SIZE).length <
            lengthWord b-UsbDevicePacketHeaderV1.SIZE := by omega
        unfold Safe
        rw [bind_of_err (readExact_of_lt hlt)]
        simp only [hcut, ne_eq, reduceCtorEq, not_false_eq_true, true_or, or_true]
      · have hle : lengthWord b-UsbDevicePacketHeaderV1.SIZE ≤
            (b.drop UsbDevicePacketHeaderV1.SIZE).length := by omega
        rw [safe_bind_of_ok (readExact_of_le hle), safe_bind_iff,
          UsbDevicePacketPayload.decode_safe_iff, List.length_take, Nat.min_eq_left hle]
        simp only [safe_pure, implies_true, and_true, true_imp_iff]
        omega
  · simp only [hv, IsEmpty.forall_iff, iff_true]
    refine safe_bind (tcpFromReader_safe codec p _) fun t s => ?_
    split
    · exact safe_throw _ _
    · refine safe_bind (safe_readExact _ s) fun payload s' => ?_
      refine safe_bind ?_ fun _ _ => safe_pure _ _
      exact (UsbDevicePacketPayload.decode_safe_iff payload s' p).mpr fun hpv => absurd hpv hv

/-- A stream that ends inside a header is an error, so `from_reader` is safe on
more inputs than `from_slice`. -/
theorem fromReader_safe_iff (b : Bytes) :
    Safe (fromReader codec) b ↔
      (UsbDevicePacketHeaderV1.SIZE ≤ b.length → protocolOf b = some .version →
        VersionSized b) := by
  by_cases h8 : UsbDevicePacketHeaderV1.SIZE ≤ b.length
  · simp only [h8, true_imp_iff]
    cases hp : protocolOf b with
    | none =>
      obtain ⟨e, rest, he⟩ := UsbDevicePacketHeader.fromReader_of_unknown h8 hp
      unfold fromReader Safe
      rw [bind_of_err he]
      simp only [ne_eq, reduceCtorEq, not_false_eq_true, false_imp_iff]
    | some p =>
      simp only [Option.some.injEq]
      by_cases h : p.headerSize ≤ b.length
      · exact fromReader_safe_of_known codec h hp
      · have hc := UsbDevicePacketHeader.fromReader_of_cut h8 (Nat.not_le.mp h) hp
        have hv : p ≠ .version := by
          rintro rfl
          exact h h8
        unfold fromReader Safe
        rw [bind_of_err hc]
        simp only [hv, ne_eq, reduceCtorEq, not_false_eq_true, false_imp_iff]
  · unfold fromReader Safe
    rw [bind_of_err (UsbDevicePacketHeader.fromReader_of_short (Nat.not_le.mp h8))]
    simp only [h8, ne_eq, reduceCtorEq, not_false_eq_true, false_imp_iff]

end UsbDevicePacket

/-- The payload that a length word announces, behind the headers, can be allocated. -/
def Allocatable (codec : TcpCodec) (maxAlloc : ℕ) (b : Bytes) : Prop :=
  ∀ p, protocolOf b = some p → p.headerSize ≤ b.length →
    if p = .tcp then
      ∀ h rest, p.headerSize+TcpHeader.MIN_LEN ≤ b.length →
        codec.fromSlice ((b.drop p.headerSize).take TcpHeader.MIN_LEN) = .ok (h, rest) →
          lengthWord b-(p.headerSize+h.headerLen) ≤ maxAlloc
    else lengthWord b-p.headerSize ≤ maxAlloc

namespace UsbDevicePacket

theorem tcpFromReader_taken_iff {codec : TcpCodec} {p : UsbDevicePacketProtocol} {s rest : Bytes}
    {t : Option TcpHeader} : tcpFromReader codec p s = (.ok t, rest) ↔
      if p = .tcp then TcpHeader.MIN_LEN ≤ s.length ∧ rest = s.drop TcpHeader.MIN_LEN ∧
        ∃ h r, codec.fromSlice (s.take TcpHeader.MIN_LEN) = .ok (h, r) ∧ t = some h
      else t = none ∧ rest = s := by
  unfold tcpFromReader
  split_ifs with hp
  · by_cases hlen : TcpHeader.MIN_LEN ≤ s.length
    · rw [bind_of_ok (readExact_of_le hlen)]
      cases hcodec : codec.fromSlice (s.take TcpHeader.MIN_LEN) with
      | ok hr =>
        obtain ⟨h, r⟩ := hr
        constructor
        · intro heq
          cases heq
          exact ⟨hlen, rfl, h, r, rfl, rfl⟩
        · rintro ⟨-, rfl, h', r', heq, rfl⟩
          cases heq
          rfl
      | error e =>
        constructor
        · intro heq
          cases heq
        · rintro ⟨-, -, h, r, heq, -⟩
          cases heq
    · rw [bind_of_err (readExact_of_lt (Nat.not_le.mp hlen))]
      constructor
      · intro heq
        cases heq
      · exact fun h => absurd h.1 hlen
  · constructor
    · intro heq
      cases heq
      exact ⟨rfl, rfl⟩
    · rintro ⟨rfl, rfl⟩
      rfl

/-- What `from_reader` allocates for a packet, by its headers. -/
theorem allocatable_iff (codec : TcpCodec) (maxAlloc : ℕ) {b : Bytes}
    {p : UsbDevicePacketProtocol} (h : p.headerSize ≤ b.length) (hp : protocolOf b = some p) :
    Allocatable codec maxAlloc b ↔ ∀ t rest,
      tcpFromReader codec p (b.drop p.headerSize) = (.ok t, rest) →
        lengthWord b-totalHeaderLen (.ofBytes p b) t ≤ maxAlloc := by
  have hsize : (UsbDevicePacketHeader.ofBytes p b).size = p.headerSize := by
    cases p <;> rfl
  have hleft : TcpHeader.MIN_LEN ≤ (b.drop p.headerSize).length ↔
      p.headerSize+TcpHeader.MIN_LEN ≤ b.length := by
    rw [List.length_drop]
    omega
  simp only [Allocatable, hp, Option.some.injEq, forall_eq', h, true_imp_iff,
    tcpFromReader_taken_iff, totalHeaderLen, hsize, hleft]
  split_ifs with htcp
  · constructor
    · rintro halloc t rest ⟨hlen, -, hdr, r, hcodec, rfl⟩
      exact halloc hdr r hlen hcodec
    · intro halloc hdr r hlen hcodec
      exact halloc (some hdr) _ ⟨hlen, rfl, hdr, r, hcodec, rfl⟩
  · constructor
    · rintro halloc t rest ⟨rfl, rfl⟩
      exact halloc
    · exact fun halloc => halloc none _ ⟨rfl, rfl⟩

variable (codec : TcpCodec) (maxAlloc : ℕ)

/-- `from_reader` behind the headers of a packet. -/
theorem fromReaderWithin_safe_of_headers {header : UsbDevicePacketHeader}
    {protocol : UsbDevicePacketProtocol} {b s : Bytes}
    (hheader : UsbDevicePacketHeader.fromReader b = (.ok header, s))
    (hprotocol : header.getProtocol s = (.ok protocol, s)) :
    Safe (fromReaderWithin codec maxAlloc) b ↔ Safe (fromReader codec) b ∧
      ∀ t rest, tcpFromReader codec protocol s = (.ok t, rest) →
        header.getLength.toNat-totalHeaderLen header t ≤ maxAlloc := by
  unfold fromReaderWithin fromReader
  rw [safe_bind_of_ok hheader, safe_bind_of_ok hprotocol, safe_bind_of_ok hheader,
    safe_bind_of_ok hprotocol, safe_bind_iff, safe_bind_iff, and_assoc, ← forall_and]
  refine and_congr_right fun _ => forall_congr' fun t => ?_
  rw [← forall_and]
  refine forall_congr' fun rest => ?_
  rw [← imp_and]
  refine imp_congr_right fun _ => ?_
  dsimp only
  split_ifs with hshort
  · -- the length word is refused before anything is allocated
    have hzero : header.getLength.toNat-totalHeaderLen header t = 0 :=
      Nat.sub_eq_zero_of_le (Nat.le_of_lt hshort)
    rw [hzero]
    exact (and_iff_left (Nat.zero_le maxAlloc)).symm
  · by_cases halloc : header.getLength.toNat-totalHeaderLen header t ≤ maxAlloc
    · rw [safe_bind_of_ok (withCapacity_of_le halloc rest)]
      exact (and_iff_left halloc).symm
    · refine iff_of_false (fun hsafe => halloc ?_) fun hboth => halloc hboth.2
      exact safe_withCapacity_iff.mp (safe_bind_iff.mp hsafe).1

theorem fromReaderWithin_safe_iff (b : Bytes) :
    Safe (fromReaderWithin codec maxAlloc) b ↔
      Safe (fromReader codec) b ∧ Allocatable codec maxAlloc b := by
  have herr {e : ParseError} {rest : Bytes}
      (hread : UsbDevicePacketHeader.fromReader b = (.err e, rest)) :
      Safe (fromReaderWithin codec maxAlloc) b ∧ Safe (fromReader codec) b := by
    unfold fromReaderWithin fromReader Safe
    rw [bind_of_err hread, bind_of_err hread]
    exact ⟨(fun hfault => by cases hfault), fun hfault => by cases hfault⟩
  by_cases hall : ∃ p, protocolOf b = some p ∧ p.headerSize ≤ b.length
  · obtain ⟨p, hp, hsize⟩ := hall
    rw [fromReaderWithin_safe_of_headers codec maxAlloc
      (UsbDevicePacketHeader.fromReader_of_known hsize hp)
      (UsbDevicePacketHeader.getProtocol_ofBytes hp _), allocatable_iff codec maxAlloc hsize hp,
      getLength_ofBytes]
  · -- the read of the header fails, and nothing is allocated
    have halloc : Allocatable codec maxAlloc b := fun p hp hsize => absurd ⟨p, hp, hsize⟩ hall
    have hread : ∃ e rest, UsbDevicePacketHeader.fromReader b = (.err e, rest) := by
      by_cases h8 : UsbDevicePacketHeaderV1.SIZE ≤ b.length
      · cases hp : protocolOf b with
        | none => exact UsbDevicePacketHeader.fromReader_of_unknown h8 hp
        | some p =>
          have hcut : b.length < p.headerSize := Nat.not_le.mp fun hsize => hall ⟨p, hp, hsize⟩
          exact ⟨_, _, UsbDevicePacketHeader.fromReader_of_cut h8 hcut hp⟩
      · exact ⟨_, _, UsbDevicePacketHeader.fromReader_of_short (Nat.not_le.mp h8)⟩
    obtain ⟨e, rest, hread⟩ := hread
    exact iff_of_true (herr hread).1 ⟨(herr hread).2, halloc⟩

/-- A length word has 32 bits. -/
theorem fromReaderWithin_eq (h : UInt32.size ≤ maxAlloc+1) :
    fromReaderWithin codec maxAlloc = fromReader codec := by
  refine bind_congr fun header => bind_congr fun protocol => bind_congr fun t => ?_
  refine if_congr Iff.rfl rfl ?_
  have hlt : header.getLength.toNat < UInt32.size := header.getLength.toNat_lt_size
  have hle : header.getLength.toNat-totalHeaderLen header t ≤ maxAlloc := by omega
  funext s
  exact bind_of_ok (withCapacity_of_le hle s) _

end UsbDevicePacket

end Rusbmux
