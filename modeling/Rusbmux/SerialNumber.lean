import Rusbmux.Utf8Reencode
import Mathlib.Data.List.DropRight

/-! The form in which serial numbers are compared, from src/utils.rs. -/
namespace Rusbmux

/-- Rust's `&s[..n]`, by bytes. It panics within a character. -/
def sliceTo (s : String) (n : ℕ) : Option String :=
  if h : (String.Pos.Raw.mk n).IsValid s then some (s.sliceTo ⟨⟨n⟩, h⟩).copy else none

/-- `&s[n..]`. -/
def sliceFrom (s : String) (n : ℕ) : Option String :=
  if h : (String.Pos.Raw.mk n).IsValid s then some (s.sliceFrom ⟨⟨n⟩, h⟩).copy else none

inductive Cow where
  | borrowed (s : String)
  | owned (s : String)
  deriving DecidableEq, Repr

def Cow.str : Cow → String
  | borrowed s | owned s => s

/-- `get_serial_number`, of the nusb backend. `none` is a panic. -/
def getSerialNumber (serialNum : String) : Option Cow :=
  if serialNum.utf8ByteSize = 24 then do
    let front ← sliceTo serialNum 8
    let back ← sliceFrom serialNum 8
    some (.owned (front.push '-' ++ back))
  else some (.borrowed serialNum)

/-- `get_serial_number_owned`, of the rusb backend. -/
def getSerialNumberOwned (serialNum : String) : Option String :=
  if serialNum.utf8ByteSize = 24 then do
    let front ← sliceTo serialNum 8
    let back ← sliceFrom serialNum 8
    some (front.push '-' ++ back)
  else some serialNum

/-- `trim_matches`. -/
def trimMatches (c : Char) (s : String) : String :=
  String.ofList ((s.toList.dropWhile (· == c)).rdropWhile (· == c))

/-- The serial number that the backend has of a device. -/
inductive AnyDeviceInfo where
  | nusb (serialNumber : Option String)
  | rusb (serialNumberString : Option String)

namespace AnyDeviceInfo

/-- What goes into the normalisation. -/
def reported : AnyDeviceInfo → Option String
  | nusb serialNumber => serialNumber
  -- the string descriptor comes with the NUL that ends it
  | rusb serialNumberString => serialNumberString.map (trimMatches '\x00')

def serialNumber (info : AnyDeviceInfo) : Option (Option Cow) :=
  match info.reported with
  | none => some none
  | some serialNum => match info with
    | nusb _ => (getSerialNumber serialNum).map some
    | rusb _ => (getSerialNumberOwned serialNum).map fun s => some (.owned s)

end AnyDeviceInfo

/-- Both functions return, and return one normal form. -/
structure Canonical (serialNum : String) : Prop where
  total : (getSerialNumber serialNum).isSome ∧ (getSerialNumberOwned serialNum).isSome
  same : (getSerialNumber serialNum).map Cow.str = getSerialNumberOwned serialNum
  again : ∀ s, getSerialNumberOwned serialNum = some s →
    getSerialNumberOwned s = some s ∧ getSerialNumber s = some (.borrowed s)

/-- Of 24 bytes, with a character across the place for the dash. -/
structure SplitsCharacter (serialNum : String) : Prop where
  length_eq : serialNum.utf8ByteSize = 24
  within : ¬ (String.Pos.Raw.mk 8).IsValid serialNum

theorem slices_append {front : String} {n : ℕ} (h : front.utf8ByteSize = n) (back : String) :
    sliceTo (front ++ back) n = some front ∧ sliceFrom (front ++ back) n = some back := by
  subst h
  have hvalid : (String.Pos.Raw.mk front.utf8ByteSize).IsValid (front ++ back) :=
    String.Pos.Raw.isValid_iff_exists_append.mpr ⟨front, back, rfl, rfl⟩
  have hsplits : (⟨⟨front.utf8ByteSize⟩, hvalid⟩ : (front ++ back).Pos).Splits front back :=
    ⟨rfl, rfl⟩
  unfold sliceTo sliceFrom
  rw [dif_pos hvalid, dif_pos hvalid]
  exact ⟨congrArg some (String.Pos.Splits.eq_left (String.Pos.splits _) hsplits),
    congrArg some (String.Pos.Splits.eq_right (String.Pos.splits _) hsplits)⟩

theorem getSerialNumberOwned_eq (serialNum : String) :
    getSerialNumberOwned serialNum = (getSerialNumber serialNum).map Cow.str := by
  unfold getSerialNumberOwned getSerialNumber
  split_ifs
  · cases sliceTo serialNum 8 with
    | none => rfl
    | some front => cases sliceFrom serialNum 8 <;> rfl
  · rfl

theorem getSerialNumber_of_length {serialNum : String} (h : serialNum.utf8ByteSize ≠ 24) :
    getSerialNumber serialNum = some (.borrowed serialNum) := if_neg h

theorem getSerialNumber_append {front back : String} (hfront : front.utf8ByteSize = 8)
    (hback : back.utf8ByteSize = 16) :
    getSerialNumber (front ++ back) = some (.owned (front.push '-' ++ back)) := by
  have hlength : (front ++ back).utf8ByteSize = 24 := by
    rw [String.utf8ByteSize_append, hfront, hback]
  obtain ⟨hto, hfrom⟩ := slices_append hfront back
  rw [getSerialNumber, if_pos hlength, hto, hfrom]
  rfl

theorem getSerialNumber_splitsCharacter {serialNum : String} (h : SplitsCharacter serialNum) :
    getSerialNumber serialNum = none := by
  rw [getSerialNumber, if_pos h.length_eq, sliceTo, dif_neg h.within]
  rfl

/-- The form of a serial number where the dash goes between two characters. -/
theorem append_of_not_splits {serialNum : String} (hlength : serialNum.utf8ByteSize = 24)
    (h : ¬ SplitsCharacter serialNum) : ∃ front back : String,
      serialNum = front ++ back ∧ front.utf8ByteSize = 8 ∧ back.utf8ByteSize = 16 := by
  have hvalid : (String.Pos.Raw.mk 8).IsValid serialNum := by
    by_contra hwithin
    exact h ⟨hlength, hwithin⟩
  obtain ⟨front, back, rfl, hpos⟩ := String.Pos.Raw.isValid_iff_exists_append.mp hvalid
  have hfront : front.utf8ByteSize = 8 := (congrArg String.Pos.Raw.byteIdx hpos).symm
  rw [String.utf8ByteSize_append] at hlength
  exact ⟨front, back, rfl, hfront, by omega⟩

/-- The dash makes the length one that is left alone. -/
theorem dashed_length {front back : String} (hfront : front.utf8ByteSize = 8)
    (hback : back.utf8ByteSize = 16) : (front.push '-' ++ back).utf8ByteSize = 25 := by
  have hdash : ('-' : Char).utf8Size = 1 := by decide
  rw [String.utf8ByteSize_append, String.utf8ByteSize_push, hfront, hback, hdash]

/-- A normal form that was found is kept, wherever the dash went. -/
theorem getSerialNumber_again {serialNum : String} {c : Cow}
    (h : getSerialNumber serialNum = some c) :
    getSerialNumber c.str = some (.borrowed c.str) := by
  by_cases hlength : serialNum.utf8ByteSize = 24
  · have hnot : ¬ SplitsCharacter serialNum := by
      intro hs
      rw [getSerialNumber_splitsCharacter hs] at h
      cases h
    obtain ⟨front, back, rfl, hfront, hback⟩ := append_of_not_splits hlength hnot
    rw [getSerialNumber_append hfront hback] at h
    cases h
    apply getSerialNumber_of_length
    rw [Cow.str, dashed_length hfront hback]
    omega
  · rw [getSerialNumber_of_length hlength] at h
    cases h
    exact getSerialNumber_of_length hlength

theorem getSerialNumber_isSome_iff (serialNum : String) :
    (getSerialNumber serialNum).isSome ↔ ¬ SplitsCharacter serialNum := by
  constructor
  · intro hsome hs
    rw [getSerialNumber_splitsCharacter hs] at hsome
    cases hsome
  · intro h
    by_cases hlength : serialNum.utf8ByteSize = 24
    · obtain ⟨front, back, rfl, hfront, hback⟩ := append_of_not_splits hlength h
      rw [getSerialNumber_append hfront hback]
      rfl
    · rw [getSerialNumber_of_length hlength]
      rfl

/-- For every string: the normalisation is total and canonical exactly unless a
character lies across the place for the dash. -/
theorem canonical_iff (serialNum : String) :
    Canonical serialNum ↔ ¬ SplitsCharacter serialNum := by
  rw [← getSerialNumber_isSome_iff]
  constructor
  · intro h
    exact h.total.1
  · intro hsome
    refine ⟨⟨hsome, ?_⟩, (getSerialNumberOwned_eq serialNum).symm, fun s hs => ?_⟩
    · rw [getSerialNumberOwned_eq, Option.isSome_map]
      exact hsome
    · rw [getSerialNumberOwned_eq] at hs
      obtain ⟨c, hc, rfl⟩ := Option.map_eq_some_iff.mp hs
      have hagain := getSerialNumber_again hc
      rw [getSerialNumberOwned_eq, hagain]
      exact ⟨rfl, rfl⟩

/-- Of a string of 24 bytes, bytes 7 and 8 are one character. -/
theorem accented_not_canonical : ¬ ∀ serialNum, Canonical serialNum := by
  intro h
  exact absurd (h "0000811é001C1D2A3B4C5D6").total.1 (by decide)

/-- Reading the serial number of a device panics exactly on such a string. -/
theorem AnyDeviceInfo.serialNumber_isSome_iff (info : AnyDeviceInfo) :
    info.serialNumber.isSome ↔ ∀ s, info.reported = some s → ¬ SplitsCharacter s := by
  unfold serialNumber
  cases hreported : info.reported with
  | none => exact iff_of_true rfl fun s hs => by cases hs
  | some serialNum =>
    have hall : (∀ s, some serialNum = some s → ¬ SplitsCharacter s) ↔
        ¬ SplitsCharacter serialNum := by
      constructor
      · intro h
        exact h serialNum rfl
      · intro h s hs
        cases hs
        exact h
    rw [hall, ← getSerialNumber_isSome_iff]
    cases info with
    | nusb => simp only [Option.isSome_map]
    | rusb => simp only [getSerialNumberOwned_eq, Option.isSome_map]

/-- A string of one-byte characters has a place for the dash. -/
theorem not_splitsCharacter_of_ascii {serialNum : String}
    (h : ∀ c ∈ serialNum.toList, c.utf8Size = 1) : ¬ SplitsCharacter serialNum := by
  intro hs
  apply hs.within
  have hones (cs : List Char) (hcs : ∀ c ∈ cs, c.utf8Size = 1) :
      (cs.map Char.utf8Size).sum = cs.length := by
    rw [List.map_eq_replicate_iff.mpr hcs, List.sum_replicate_nat, Nat.mul_one]
  have hlength : serialNum.toList.length = 24 := by
    rw [← hones _ h, ← Utf8Lossy.utf8ByteSize_eq_sum, hs.length_eq]
  have hfront : (String.ofList (serialNum.toList.take 8)).utf8ByteSize = 8 := by
    rw [Utf8Lossy.utf8ByteSize_eq_sum, String.toList_ofList,
      hones _ fun c hc => h c (List.mem_of_mem_take hc), List.length_take, hlength]
    omega
  exact String.Pos.Raw.isValid_iff_exists_take_toList.mpr ⟨8, hfront.symm⟩

end Rusbmux
