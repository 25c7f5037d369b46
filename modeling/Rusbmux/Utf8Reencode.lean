import Rusbmux.Utf8Lossy
import Mathlib.Algebra.GroupWithZero.Nat
import Mathlib.Tactic.SplitIfs

/-! Lossy decoding followed by encoding: how many bytes there are, and that a
string is decoded from its own bytes. -/
namespace Utf8Lossy

/-- The two bytes begin a well-formed sequence of that width. -/
def Leads (b c : UInt8) (width : Nat) : Prop :=
  ∃ lo hi, lead b = some (width, lo, hi) ∧ lo ≤ c ∧ c ≤ hi

theorem leads_iff (b c : UInt8) (width : Nat) : Leads b c width ↔
    (0x80 ≤ c.toNat ∧ c.toNat ≤ 0xbf) ∧
      (width = 2 ∧ 0xc2 ≤ b.toNat ∧ b.toNat ≤ 0xdf ∨
        width = 3 ∧ 0xe0 ≤ b.toNat ∧ b.toNat ≤ 0xef ∧ (b.toNat = 0xe0 → 0xa0 ≤ c.toNat) ∧
          (b.toNat = 0xed → c.toNat ≤ 0x9f) ∨
        width = 4 ∧ 0xf0 ≤ b.toNat ∧ b.toNat ≤ 0xf4 ∧ (b.toNat = 0xf0 → 0x90 ≤ c.toNat) ∧
          (b.toNat = 0xf4 → c.toNat ≤ 0x8f)) := by
  have hsome (w : Nat) (lo hi : UInt8) : (∃ lo' hi', some (w, lo, hi) = some (width, lo', hi') ∧
      lo' ≤ c ∧ c ≤ hi') ↔ width = w ∧ lo.toNat ≤ c.toNat ∧ c.toNat ≤ hi.toNat := by
    constructor
    · rintro ⟨_, _, ⟨⟩, hlo, hhi⟩
      exact ⟨rfl, hlo, hhi⟩
    · rintro ⟨rfl, hlo, hhi⟩
      exact ⟨lo, hi, rfl, hlo, hhi⟩
  unfold Leads lead
  simp only [Bool.and_eq_true, decide_eq_true_eq, UInt8.le_iff_toNat_le, ← UInt8.toNat_inj,
    UInt8.reduceToNat] at hsome ⊢
  -- one row of the table of `lead` after the other
  split_ifs <;> simp only [hsome, UInt8.reduceToNat, false_and, exists_false, false_iff]
  all_goals omega

/-- The bytes begin with a well-formed sequence of more than one byte. -/
structure Sequence (b : UInt8) (rest : List UInt8) (c : UInt8) (cs : List UInt8)
    (width : Nat) : Prop where
  rest_eq : rest = c :: cs
  leads : Leads b c width
  conts : ((cs.take (width-2)).takeWhile isCont).length = width-2

theorem toNat_ofNat {n : Nat} (h : n.isValidChar) : (Char.ofNat n).toNat = n := by
  rw [Char.ofNat, dif_pos h]
  rfl

theorem utf8Size_ofNat_one {n : Nat} (h : n < 0x80) : (Char.ofNat n).utf8Size = 1 := by
  have hn : (Char.ofNat n).toNat = n := toNat_ofNat (.inl (by omega))
  rw [Char.utf8Size_eq_one_iff, UInt32.le_iff_toNat_le, Char.toNat_val, hn]
  exact Nat.le_of_lt_succ h

theorem utf8Size_ofNat_two {n : Nat} (h : 0x80 ≤ n) (h' : n < 0x800) :
    (Char.ofNat n).utf8Size = 2 := by
  have hn : (Char.ofNat n).toNat = n := toNat_ofNat (.inl (by omega))
  rw [Char.utf8Size_eq_two_iff, UInt32.lt_iff_toNat_lt, UInt32.le_iff_toNat_le, Char.toNat_val, hn]
  exact ⟨h, Nat.le_of_lt_succ h'⟩

theorem utf8Size_ofNat_three {n : Nat} (h : 0x800 ≤ n) (h' : n < 0x10000)
    (hs : n < 0xd800 ∨ 0xdfff < n) : (Char.ofNat n).utf8Size = 3 := by
  have hvalid : n.isValidChar := by
    unfold Nat.isValidChar
    omega
  rw [Char.utf8Size_eq_three_iff, UInt32.lt_iff_toNat_lt, UInt32.le_iff_toNat_le, Char.toNat_val,
    toNat_ofNat hvalid]
  exact ⟨h, Nat.le_of_lt_succ h'⟩

theorem utf8Size_ofNat_four {n : Nat} (h : 0x10000 ≤ n) (h' : n < 0x110000) :
    (Char.ofNat n).utf8Size = 4 := by
  have hvalid : n.isValidChar := .inr ⟨by omega, h'⟩
  rw [Char.utf8Size_eq_four_iff, UInt32.lt_iff_toNat_lt, Char.toNat_val, toNat_ofNat hvalid]
  exact h

theorem not_lt_of_leads {b c : UInt8} {width : Nat} (h : Leads b c width) : ¬b < 0x80 := by
  have hb := ((leads_iff b c width).mp h).2
  simp only [UInt8.lt_iff_toNat_lt, UInt8.reduceToNat]
  omega

theorem next_of_sequence {b c : UInt8} {rest cs : List UInt8} {width : Nat}
    (h : Sequence b rest c cs width) : next b rest =
      (codePoint (b.toNat%(1 <<< (7-width))) (c :: (cs.take (width-2)).takeWhile isCont),
        width) := by
  obtain ⟨lo, hi, hlead, hlo, hhi⟩ := h.leads
  rw [h.rest_eq, next, if_neg (not_lt_of_leads h.leads)]
  simp only [hlead, hlo, hhi, decide_true, Bool.and_self, if_true, h.conts]

/-- A sequence has as many bytes as its character takes. -/
theorem utf8Size_of_sequence {b c : UInt8} {rest cs : List UInt8} {width : Nat}
    (h : Sequence b rest c cs width) : (next b rest).1.utf8Size = width := by
  have hconts := h.conts
  rw [next_of_sequence h]
  generalize (cs.take (width-2)).takeWhile isCont = conts at hconts ⊢
  obtain ⟨hc, ⟨rfl, hb⟩ | ⟨rfl, hb⟩ | ⟨rfl, hb⟩⟩ := (leads_iff b c width).mp h.leads
  -- by the width; the bounds on the first two bytes are those of the code point
  · obtain rfl := List.eq_nil_of_length_eq_zero hconts
    simp only [codePoint, List.foldl_cons, List.foldl_nil, Nat.reduceSub, Nat.reduceShiftLeft]
    apply utf8Size_ofNat_two <;> omega
  · obtain ⟨d, rfl⟩ := List.length_eq_one_iff.mp hconts
    simp only [codePoint, List.foldl_cons, List.foldl_nil, Nat.reduceSub, Nat.reduceShiftLeft]
    apply utf8Size_ofNat_three <;> omega
  · obtain ⟨d, e, rfl⟩ := List.length_eq_two.mp hconts
    simp only [codePoint, List.foldl_cons, List.foldl_nil, Nat.reduceSub, Nat.reduceShiftLeft]
    apply utf8Size_ofNat_four <;> omega

/-- The bytes do not begin with a well-formed sequence. -/
def illFormed (b : UInt8) (rest : List UInt8) : Bool :=
  if b < 0x80 then false
  else match lead b with
    | none => true
    | some (width, lo, hi) =>
      match rest with
      | [] => true
      | c :: cs => !(lo ≤ c && c ≤ hi &&
          ((cs.take (width-2)).takeWhile isCont).length == width-2)

theorem length_conts_le (cs : List UInt8) (width : Nat) :
    ((cs.take (width-2)).takeWhile isCont).length ≤ cs.length :=
  Nat.le_trans (List.takeWhile_sublist _).length_le (List.length_take_le' _ _)

theorem next_of_illFormed {b : UInt8} {rest : List UInt8} (h : illFormed b rest = true) :
    (next b rest).1 = replacement ∧ 0 < (next b rest).2 ∧ (next b rest).2 ≤ rest.length+1 := by
  unfold illFormed at h
  unfold next
  split_ifs at h ⊢ with hb
  rcases hlead : lead b with _ | ⟨width, lo, hi⟩
  · exact ⟨rfl, Nat.one_pos, Nat.le_add_left _ _⟩
  · rw [hlead] at h
    rcases rest with _ | ⟨c, cs⟩
    · exact ⟨rfl, Nat.one_pos, Nat.le_add_left _ _⟩
    · simp only [Bool.not_eq_true', Bool.and_eq_false_iff, beq_eq_false_iff_ne] at h ⊢
      have hle := length_conts_le cs width
      split_ifs with hrange hconts
      · simp only [Bool.and_eq_true] at hrange
        simp only [hrange, hconts] at h
        simp at h
      · refine ⟨rfl, Nat.zero_lt_of_lt (Nat.lt_add_right _ Nat.one_lt_two), ?_⟩
        simp only [List.length_cons]
        omega
      · exact ⟨rfl, Nat.one_pos, Nat.le_add_left _ _⟩

theorem sequence_of_wellFormed {b : UInt8} {rest : List UInt8} (h : illFormed b rest = false)
    (hb : ¬b < 0x80) : ∃ c cs width, Sequence b rest c cs width := by
  rw [illFormed, if_neg hb] at h
  rcases hlead : lead b with _ | ⟨width, lo, hi⟩
  · rw [hlead] at h
    cases h
  · rw [hlead] at h
    rcases rest with _ | ⟨c, cs⟩
    · cases h
    · simp only [Bool.not_eq_false', Bool.and_eq_true, beq_iff_eq, decide_eq_true_eq] at h
      exact ⟨c, cs, width, rfl, ⟨lo, hi, hlead, h.1.1, h.1.2⟩, h.2⟩

/-- A well-formed part has as many bytes as its character takes. -/
theorem next_of_wellFormed {b : UInt8} {rest : List UInt8} (h : illFormed b rest = false) :
    (next b rest).1.utf8Size = (next b rest).2 ∧ (next b rest).2 ≤ rest.length+1 := by
  by_cases hb : b < 0x80
  · rw [next, if_pos hb]
    refine ⟨utf8Size_ofNat_one ?_, Nat.le_add_left _ _⟩
    rwa [UInt8.lt_iff_toNat_lt] at hb
  · obtain ⟨c, cs, width, hseq⟩ := sequence_of_wellFormed h hb
    have hsize := utf8Size_of_sequence hseq
    have hconts := length_conts_le cs width
    have hwidth : (next b rest).2 = width := by rw [next_of_sequence hseq]
    rw [hseq.conts] at hconts
    rw [hwidth, hseq.rest_eq, List.length_cons]
    exact ⟨hseq.rest_eq ▸ hsize, by omega⟩

/-- The lengths of the parts that are replaced. -/
def replaced : Nat → List UInt8 → List Nat
  | 0, _ => []
  | _, [] => []
  | fuel+1, b :: rest =>
    let n := (next b rest).2
    let ns := replaced fuel (rest.drop (n-1))
    if illFormed b rest then n :: ns else ns

theorem utf8Size_replacement : replacement.utf8Size = 3 := by decide

/-- Each part that is replaced turns into three bytes, and the rest keeps its bytes. -/
theorem sum_utf8Size (fuel : Nat) (bytes : List UInt8) (h : bytes.length ≤ fuel) :
    ((chars fuel bytes).map Char.utf8Size).sum+(replaced fuel bytes).sum =
      bytes.length+3*(replaced fuel bytes).length := by
  induction fuel generalizing bytes with
  | zero =>
    obtain rfl := List.eq_nil_of_length_eq_zero (Nat.le_zero.mp h)
    rfl
  | succ fuel ih =>
    rcases bytes with _ | ⟨b, rest⟩
    · rfl
    · rw [List.length_cons] at h ⊢
      have hrest := ih (rest.drop ((next b rest).2-1)) (by rw [List.length_drop]; omega)
      rw [List.length_drop] at hrest
      cases hill : illFormed b rest with
      | true =>
        -- the part lies within the bytes, so its length and that of the rest add up
        obtain ⟨hc, hpos, hle⟩ := next_of_illFormed hill
        simp only [chars, replaced, hill, if_true, hc, List.map_cons, List.sum_cons,
          utf8Size_replacement, List.length_cons]
        omega
      | false =>
        obtain ⟨hc, hle⟩ := next_of_wellFormed hill
        have hpos := Char.utf8Size_pos (next b rest).1
        simp only [chars, replaced, hill, Bool.false_eq_true, if_false, hc, List.map_cons,
          List.sum_cons]
        omega

theorem toNat_cont (n : Nat) : (UInt8.ofNat (n%64+128)).toNat = n%64+128 := by
  rw [UInt8.toNat_ofNat']
  omega

theorem isCont_cont (n : Nat) : isCont (UInt8.ofNat (n%64+128)) = true := by
  simp only [isCont, UInt8.le_iff_toNat_le, toNat_cont, UInt8.reduceToNat, Bool.and_eq_true,
    decide_eq_true_eq]
  omega

theorem toNat_lead {n m k : Nat} (h : m+k ≤ 256) (hm : 0 < m) :
    (UInt8.ofNat (n%m+k)).toNat = n%m+k := by
  have hlt := Nat.mod_lt n hm
  rw [UInt8.toNat_ofNat']
  omega

theorem next_one {v : Nat} (h : v ≤ 0x7f) (rest : List UInt8) :
    next (UInt8.ofNat v) rest = (Char.ofNat v, 1) := by
  have hb : (UInt8.ofNat v).toNat = v := by
    rw [UInt8.toNat_ofNat']
    omega
  have hlt : UInt8.ofNat v < 0x80 := by
    rw [UInt8.lt_iff_toNat_lt, hb]
    exact Nat.lt_succ_of_le h
  rw [next, if_pos hlt, hb]

theorem next_two {v : Nat} (h : ¬v ≤ 0x7f) (h' : v ≤ 0x7ff) (rest : List UInt8) :
    next (UInt8.ofNat (v/64%0x20+0xc0)) (UInt8.ofNat (v%64+128) :: rest) = (Char.ofNat v, 2) := by
  have hb : (UInt8.ofNat (v/64%0x20+0xc0)).toNat = v/64%0x20+0xc0 :=
    toNat_lead (by decide) (by decide)
  have hseq : Sequence (UInt8.ofNat (v/64%0x20+0xc0)) (UInt8.ofNat (v%64+128) :: rest)
      (UInt8.ofNat (v%64+128)) rest 2 := by
    refine ⟨rfl, (leads_iff _ _ _).mpr ?_, rfl⟩
    rw [hb, toNat_cont]
    omega
  have hcode : (v/64%0x20+0xc0)%32*64+(v%64+128)%64 = v := by omega
  rw [next_of_sequence hseq, hb]
  simp only [codePoint, Nat.reduceSub, Nat.reduceShiftLeft, List.take_zero, List.takeWhile_nil,
    List.foldl_cons, List.foldl_nil, toNat_cont, hcode]

/-- Neither an overlong encoding nor a surrogate. -/
theorem next_three {v : Nat} (h : ¬v ≤ 0x7ff) (h' : v ≤ 0xffff) (hs : v < 0xd800 ∨ 0xdfff < v)
    (rest : List UInt8) : next (UInt8.ofNat (v/4096%0x10+0xe0))
      (UInt8.ofNat (v/64%64+128) :: UInt8.ofNat (v%64+128) :: rest) = (Char.ofNat v, 3) := by
  have hb : (UInt8.ofNat (v/4096%0x10+0xe0)).toNat = v/4096%0x10+0xe0 :=
    toNat_lead (by decide) (by decide)
  have hconts : ((UInt8.ofNat (v%64+128) :: rest).take (3-2)).takeWhile isCont =
      [UInt8.ofNat (v%64+128)] := by
    change [UInt8.ofNat (v%64+128)].takeWhile isCont = _
    rw [List.takeWhile_cons, if_pos (isCont_cont v), List.takeWhile_nil]
  have hseq : Sequence (UInt8.ofNat (v/4096%0x10+0xe0))
      (UInt8.ofNat (v/64%64+128) :: UInt8.ofNat (v%64+128) :: rest)
      (UInt8.ofNat (v/64%64+128)) (UInt8.ofNat (v%64+128) :: rest) 3 := by
    refine ⟨rfl, (leads_iff _ _ _).mpr ?_, congrArg List.length hconts⟩
    rw [hb, toNat_cont]
    omega
  have hcode : ((v/4096%0x10+0xe0)%16*64+(v/64%64+128)%64)*64+(v%64+128)%64 = v := by omega
  rw [next_of_sequence hseq, hconts, hb]
  simp only [codePoint, Nat.reduceSub, Nat.reduceShiftLeft, List.foldl_cons, List.foldl_nil,
    toNat_cont, hcode]

theorem next_four {v : Nat} (h : ¬v ≤ 0xffff) (h' : v < 0x110000) (rest : List UInt8) :
    next (UInt8.ofNat (v/262144%0x08+0xf0)) (UInt8.ofNat (v/4096%64+128) ::
      UInt8.ofNat (v/64%64+128) :: UInt8.ofNat (v%64+128) :: rest) = (Char.ofNat v, 4) := by
  have hb : (UInt8.ofNat (v/262144%0x08+0xf0)).toNat = v/262144%0x08+0xf0 :=
    toNat_lead (by decide) (by decide)
  have hconts : ((UInt8.ofNat (v/64%64+128) :: UInt8.ofNat (v%64+128) :: rest).take
      (4-2)).takeWhile isCont = [UInt8.ofNat (v/64%64+128), UInt8.ofNat (v%64+128)] := by
    change [UInt8.ofNat (v/64%64+128), UInt8.ofNat (v%64+128)].takeWhile isCont = _
    rw [List.takeWhile_cons, if_pos (isCont_cont _), List.takeWhile_cons,
      if_pos (isCont_cont v), List.takeWhile_nil]
  have hseq : Sequence (UInt8.ofNat (v/262144%0x08+0xf0))
      (UInt8.ofNat (v/4096%64+128) :: UInt8.ofNat (v/64%64+128) :: UInt8.ofNat (v%64+128) :: rest)
      (UInt8.ofNat (v/4096%64+128))
      (UInt8.ofNat (v/64%64+128) :: UInt8.ofNat (v%64+128) :: rest) 4 := by
    refine ⟨rfl, (leads_iff _ _ _).mpr ?_, congrArg List.length hconts⟩
    rw [hb, toNat_cont]
    omega
  have hcode : (((v/262144%0x08+0xf0)%8*64+(v/4096%64+128)%64)*64+(v/64%64+128)%64)*64+
      (v%64+128)%64 = v := by omega
  rw [next_of_sequence hseq, hconts, hb]
  simp only [codePoint, Nat.reduceSub, Nat.reduceShiftLeft, List.foldl_cons, List.foldl_nil,
    toNat_cont, hcode]

/-- The first byte of a character's encoding, and what is decoded from there. -/
theorem next_utf8EncodeChar (c : Char) (rest : List UInt8) : ∃ b tail,
    String.utf8EncodeChar c = b :: tail ∧ next b (tail ++ rest) = (c, tail.length+1) := by
  have hvalid : c.val.toNat < 0xd800 ∨ 0xdfff < c.val.toNat ∧ c.val.toNat < 0x110000 := c.valid
  have hc : Char.ofNat c.val.toNat = c := c.ofNat_toNat
  generalize hv : c.val.toNat = v at hvalid hc
  have hs : v < 0xd800 ∨ 0xdfff < v := hvalid.imp_right And.left
  have hlt : v < 0x110000 := by omega
  unfold String.utf8EncodeChar
  simp only [hv]
  rw [← hc]
  -- by how many bytes the character takes
  split_ifs with h1 h2 h3
  · exact ⟨_, _, rfl, next_one h1 rest⟩
  · exact ⟨_, _, rfl, next_two h1 h2 rest⟩
  · exact ⟨_, _, rfl, next_three h2 h3 hs rest⟩
  · exact ⟨_, _, rfl, next_four h3 hlt rest⟩

/-- Characters are decoded from their own bytes. -/
theorem chars_flatMap_encode (cs : List Char) (fuel : Nat)
    (h : (cs.flatMap String.utf8EncodeChar).length ≤ fuel) :
    chars fuel (cs.flatMap String.utf8EncodeChar) = cs := by
  induction cs generalizing fuel with
  | nil => cases fuel <;> rfl
  | cons c cs ih =>
    obtain ⟨b, tail, hc, hnext⟩ := next_utf8EncodeChar c (cs.flatMap String.utf8EncodeChar)
    rw [List.flatMap_cons, hc, List.cons_append] at h ⊢
    rw [List.length_cons, List.length_append] at h
    cases fuel with
    | zero => exact absurd h (Nat.not_le.mpr (Nat.succ_pos _))
    | succ fuel =>
      have hrest := ih fuel (by omega)
      simp only [chars, hnext, Nat.add_sub_cancel, List.drop_left, hrest]

theorem toList_toUTF8 (s : String) :
    s.toUTF8.data.toList = s.toList.flatMap String.utf8EncodeChar := by
  have hs : s.toByteArray = s.toList.utf8Encode := by
    rw [← String.toByteArray_ofList, String.ofList_toList]
  rw [String.toUTF8_eq_toByteArray, hs, List.utf8Encode, List.toList_data_toByteArray]

/-- A string is decoded from its own bytes. -/
theorem decode_toUTF8 (s : String) : decode s.toUTF8.data.toList = s := by
  rw [toList_toUTF8, decode, chars_flatMap_encode s.toList _ (Nat.le_refl _), String.ofList_toList]

theorem length_flatMap_encode (cs : List Char) :
    (cs.flatMap String.utf8EncodeChar).length = (cs.map Char.utf8Size).sum := by
  rw [List.length_flatMap]
  simp only [String.length_utf8EncodeChar]

theorem utf8ByteSize_eq_sum (s : String) :
    s.utf8ByteSize = (s.toList.map Char.utf8Size).sum := by
  rw [← length_flatMap_encode, ← String.size_toByteArray, ← String.toUTF8_eq_toByteArray,
    ByteArray.size, ← Array.length_toList, toList_toUTF8]

/-- The bytes of what is decoded. -/
theorem utf8ByteSize_decode (bytes : List UInt8) :
    (decode bytes).utf8ByteSize+(replaced bytes.length bytes).sum =
      bytes.length+3*(replaced bytes.length bytes).length := by
  have hsize : (decode bytes).utf8ByteSize =
      ((chars bytes.length bytes).map Char.utf8Size).sum := by
    rw [utf8ByteSize_eq_sum, decode, String.toList_ofList]
  rw [hsize, sum_utf8Size _ _ (Nat.le_refl _)]

end Utf8Lossy
