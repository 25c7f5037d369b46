import Mathlib.Data.List.Basic

/-! Decoding of bytes that need not be UTF-8. Every maximal ill-formed part is
replaced by one U+FFFD, as Rust's `String::from_utf8_lossy` does. -/
namespace Utf8Lossy

def isCont (b : UInt8) : Bool := 0x80 ≤ b && b ≤ 0xbf

/-- How many bytes a sequence with this first byte takes, and the range of its
second byte. -/
def lead (b : UInt8) : Option (Nat × UInt8 × UInt8) :=
  if 0xc2 ≤ b && b ≤ 0xdf then some (2, 0x80, 0xbf)
  else if b = 0xe0 then some (3, 0xa0, 0xbf)
  else if b = 0xed then some (3, 0x80, 0x9f)
  else if 0xe1 ≤ b && b ≤ 0xef then some (3, 0x80, 0xbf)
  else if b = 0xf0 then some (4, 0x90, 0xbf)
  else if 0xf1 ≤ b && b ≤ 0xf3 then some (4, 0x80, 0xbf)
  else if b = 0xf4 then some (4, 0x80, 0x8f)
  else none

def replacement : Char := Char.ofNat 0xfffd

/-- The code point of a well-formed sequence, from the payload bits of its
first byte. -/
def codePoint (bits : Nat) (conts : List UInt8) : Char :=
  Char.ofNat (conts.foldl (fun n c => n*64+c.toNat%64) bits)

/-- The first character of the input and the number of bytes it covers. -/
def next (b : UInt8) (rest : List UInt8) : Char × Nat :=
  if b < 0x80 then (Char.ofNat b.toNat, 1)
  else match lead b with
    | none => (replacement, 1)
    | some (width, lo, hi) =>
      match rest with
      | [] => (replacement, 1)
      | c :: cs =>
        if lo ≤ c && c ≤ hi then
          let conts := (cs.take (width-2)).takeWhile isCont
          if conts.length = width-2 then
            (codePoint (b.toNat%(1 <<< (7-width))) (c :: conts), width)
          else (replacement, 2+conts.length)
        else (replacement, 1)

/-- `fuel` bounds the number of characters. -/
def chars : Nat → List UInt8 → List Char
  | 0, _ => []
  | _, [] => []
  | fuel+1, b :: rest =>
    let (c, n) := next b rest
    c :: chars fuel (rest.drop (n-1))

def decode (bytes : List UInt8) : String := String.ofList (chars bytes.length bytes)

end Utf8Lossy
