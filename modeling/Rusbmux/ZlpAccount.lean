import Rusbmux.RusbWriter
import Mathlib.Data.Nat.ModEq

/-! What `current_transfer_len` counts over the calls of a writer, and the
zero-length packets of `submit_end`. -/
namespace Rusbmux

/-- `mark`, `missed` and `stale` are no part of the program: the bytes handed
over by the previous `submit_end`; since the last `submit_end` that succeeded,
the bytes that writes at the threshold found in the buffer, and the bytes handed
over up to the failed `submit_end` calls. -/
structure ZlpAccount where
  writer : RusbAsyncWriter
  mark : ℕ
  missed : ℕ
  stale : ℕ

namespace ZlpAccount

open RusbAsyncWriter

inductive Call where
  | pollWrite (submit : Except String Unit) (buf : Bytes)
  | pollFlush (submit : Except String Unit) (early : Option (Option BulkResult))
  | submitEnd (flush zlp : Except String Unit)
  /-- The transfer in flight ends, with any result. -/
  | complete (value : Option BulkResult)

/-- The bytes handed to the endpoint since the previous `submit_end`. -/
def sinceEnd (s : ZlpAccount) : ℕ := s.writer.handed-s.mark

/-- A poll that panics ends the run. -/
def step (s : ZlpAccount) : Call → Option ZlpAccount
  | .pollWrite submit buf => (s.writer.pollWrite submit buf).map fun r => { s with
      writer := r.2
      missed := if s.writer.Crosses buf ∧ submit = .ok () then s.missed+s.writer.buffer.length
        else s.missed }
  | .pollFlush submit early =>
    (s.writer.pollFlush submit early).map fun r => { s with writer := r.2 }
  | .submitEnd flush zlp => match s.writer.submitEnd flush zlp with
    | (.ok (), w) => some { writer := w, mark := w.handed, missed := 0, stale := 0 }
    | (.error _, w) => some { s with
        writer := w
        mark := w.handed
        stale := s.stale+(w.handed-s.mark) }
  | .complete value => (s.writer.complete value).map fun w => { s with writer := w }

theorem step_of_crosses {s : ZlpAccount} {buf : Bytes} (h : s.writer.Crosses buf) :
    s.step (.pollWrite (.ok ()) buf) = some { s with
      writer := { s.writer with
        buffer := []
        transfers := s.writer.transfers ++ [s.writer.buffer ++ buf]
        currentTransferLen := s.writer.currentTransferLen + UInt64.ofNat buf.length
        pending := some .waiting }
      missed := s.missed+s.writer.buffer.length } := by
  simp only [step, pollWrite_of_crosses h, h, and_self, if_true, Option.map_some]

theorem step_of_below {s : ZlpAccount} {buf : Bytes} {submit : Except String Unit}
    (hp : s.writer.pending = none) (hb : buf ≠ [])
    (hl : s.writer.buffer.length+buf.length < MAX_PACKET_SIZE*2) :
    s.step (.pollWrite submit buf) = some { s with
      writer := { s.writer with buffer := s.writer.buffer ++ buf } } := by
  have hc : ¬ (s.writer.Crosses buf ∧ submit = .ok ()) := fun h => Nat.not_le.mpr hl h.1.2.2
  simp only [step, pollWrite_of_below hp hb hl, if_neg hc, Option.map_some]

theorem step_submitEnd (s : ZlpAccount) (flush zlp : Except String Unit) :
    ∃ t, s.step (.submitEnd flush zlp) = some t := by
  cases h : s.writer.submitEnd flush zlp with
  | mk r w =>
    simp only [step, h]
    cases r with
    | ok u => exact ⟨_, rfl⟩
    | error e => exact ⟨_, rfl⟩

def start (maxPacketSize : UInt16) : ZlpAccount where
  writer := RusbAsyncWriter.new maxPacketSize
  mark := 0
  missed := 0
  stale := 0

/-- A `submit_end` comes to its decision unless the write of the buffer fails. -/
def Decides (s : ZlpAccount) (flush : Except String Unit) : Prop :=
  s.writer.buffer = [] ∨ flush = .ok ()

/-- At its decision `submit_end` has counted what was handed over since the
previous call, and it sends a zero-length packet exactly for a positive multiple
of the packet size. -/
def Accounts (s : ZlpAccount) : Call → Prop
  | .submitEnd flush zlp =>
    let w := (s.writer.syncFlush flush).2
    s.Decides flush →
      w.currentTransferLen.toNat = { s with writer := w }.sinceEnd ∧
      ((s.writer.submitEnd flush zlp).2.transfers = w.transfers ++ [[]] ↔
        0 < { s with writer := w }.sinceEnd ∧ w.maxPacketSize ∣ { s with writer := w }.sinceEnd)
  | _ => True

/-- The bytes that were not counted make up for those counted before, and the
counter has room. -/
def Balanced (s : ZlpAccount) : Call → Prop
  | .submitEnd flush _ => s.Decides flush →
    s.sinceEnd+s.writer.buffer.length < UInt64.size ∧ s.missed ≡ s.stale [MOD UInt64.size]
  | _ => True

/-- The counter, as a number modulo the size of a word. -/
structure Inv (s : ZlpAccount) : Prop where
  mark : s.mark ≤ s.writer.handed
  counted : s.writer.currentTransferLen.toNat+s.missed ≡ s.stale+s.sinceEnd [MOD UInt64.size]

theorem inv_start (maxPacketSize : UInt16) : (start maxPacketSize).Inv where
  mark := Nat.le_refl 0
  counted := rfl

/-- Bytes that are handed over and counted, or set down as missed. -/
theorem Inv.hands {s : ZlpAccount} (h : s.Inv) {w : RusbAsyncWriter} {data counted missed : ℕ}
    (hd : w.handed = s.writer.handed+data) (hs : counted+missed = data)
    (hc : w.currentTransferLen = s.writer.currentTransferLen + UInt64.ofNat counted) :
    Inv { s with writer := w, missed := s.missed+missed } where
  mark := by
    have hm := h.mark
    change s.mark ≤ w.handed
    omega
  counted := by
    have hm := h.mark
    have hi := h.counted
    change w.currentTransferLen.toNat+(s.missed+missed) ≡ s.stale+(w.handed-s.mark) [MOD _]
    simp only [sinceEnd] at hi
    rw [hc, hd, UInt64.toNat_add, UInt64.toNat_ofNat']
    simp only [Nat.ModEq, UInt64.size] at hi ⊢
    omega

theorem Inv.keeps {s : ZlpAccount} (h : s.Inv) {w : RusbAsyncWriter}
    (ht : w.transfers = s.writer.transfers)
    (hc : w.currentTransferLen = s.writer.currentTransferLen) :
    Inv { s with writer := w } := by
  have hd : w.handed = s.writer.handed+0 := congrArg (fun ts => ts.flatten.length) ht
  exact h.hands hd (Nat.zero_add 0) (by rw [hc]; exact (UInt64.add_zero _).symm)

/-- What lay in the buffer is counted when `submit_end` writes it. -/
theorem syncFlush_counts (w : RusbAsyncWriter) (flush : Except String Unit) :
    (w.syncFlush flush).2.handed = w.handed+w.buffer.length ∧
      (w.syncFlush flush).2.currentTransferLen =
        w.currentTransferLen + UInt64.ofNat w.buffer.length := by
  unfold syncFlush
  split_ifs with hb
  · rw [hb]
    exact ⟨rfl, (UInt64.add_zero _).symm⟩
  · have hd : (w.transfers ++ [w.buffer]).flatten.length = w.handed+w.buffer.length := by
      rw [handed, List.flatten_append, List.flatten_singleton, List.length_append]
    cases flush with
    | ok u => exact ⟨hd, rfl⟩
    | error e => exact ⟨hd, rfl⟩

theorem Inv.syncFlush {s : ZlpAccount} (h : s.Inv) (flush : Except String Unit) :
    Inv { s with writer := (s.writer.syncFlush flush).2 } := by
  have hf := syncFlush_counts s.writer flush
  exact h.hands hf.1 (Nat.add_zero _) hf.2

theorem submitEnd_of_decides {s : ZlpAccount} {flush : Except String Unit}
    (h : s.Decides flush) (zlp : Except String Unit) :
    s.writer.submitEnd flush zlp = (s.writer.syncFlush flush).2.syncZlp zlp := by
  unfold submitEnd syncFlushAndZlp syncFlush
  split_ifs with hb
  · rfl
  · cases h.resolve_left hb
    rfl

/-- A zero-length packet goes out by the counter alone. -/
theorem syncZlp_transfers (w : RusbAsyncWriter) (zlp : Except String Unit) :
    (w.syncZlp zlp).2.transfers = w.transfers ++ [[]] ↔
      0 < w.currentTransferLen.toNat ∧ w.maxPacketSize ∣ w.currentTransferLen.toNat := by
  have hc : (0 < w.currentTransferLen ∧
      isMultipleOf w.currentTransferLen.toNat w.maxPacketSize = true) ↔
      0 < w.currentTransferLen.toNat ∧ w.maxPacketSize ∣ w.currentTransferLen.toNat := by
    rw [isMultipleOf_iff, UInt64.lt_iff_toNat_lt, UInt64.toNat_zero]
  rw [← hc]
  unfold syncZlp
  split_ifs with hz
  · cases zlp with
    | ok u => exact ⟨fun _ => hz, fun _ => rfl⟩
    | error e => exact ⟨fun _ => hz, fun _ => rfl⟩
  · have hne : w.transfers ≠ w.transfers ++ [[]] := by simp
    exact ⟨fun h => absurd h hne, fun h => absurd h hz⟩

theorem accounts_iff_balanced_at {s : ZlpAccount} (h : s.Inv) (c : Call) :
    s.Accounts c ↔ s.Balanced c := by
  cases c with
  | pollWrite submit buf => exact Iff.rfl
  | pollFlush submit early => exact Iff.rfl
  | complete value => exact Iff.rfl
  | submitEnd flush zlp =>
    have hi := h.syncFlush flush
    have hf := syncFlush_counts s.writer flush
    have hm := h.mark
    have hl : ZlpAccount.sinceEnd { s with writer := (s.writer.syncFlush flush).2 } =
        s.sinceEnd+s.writer.buffer.length := by
      simp only [sinceEnd, hf.1]
      omega
    have hlt := (s.writer.syncFlush flush).2.currentTransferLen.toNat_lt
    have hcount := hi.counted
    simp only [hl] at hcount
    -- both sides are congruent by the invariant; the bound makes them equal
    constructor
    · intro ha hd
      have heq := (ha hd).1
      rw [hl] at heq
      refine ⟨heq ▸ hlt, ?_⟩
      rw [heq, Nat.add_comm s.stale] at hcount
      exact Nat.ModEq.add_left_cancel' _ hcount
    · intro hb hd
      have heq : (s.writer.syncFlush flush).2.currentTransferLen.toNat =
          s.sinceEnd+s.writer.buffer.length := by
        rw [Nat.add_comm s.stale] at hcount
        have hmod := Nat.ModEq.add_right_cancel (hb hd).2 hcount
        exact Nat.ModEq.eq_of_lt_of_lt hmod hlt (hb hd).1
      refine ⟨heq.trans hl.symm, ?_⟩
      rw [submitEnd_of_decides hd, syncZlp_transfers, hl, heq]

theorem syncZlp_reset {w w' : RusbAsyncWriter} {zlp : Except String Unit}
    (h : w.syncZlp zlp = (.ok (), w')) : w'.currentTransferLen = 0 := by
  unfold syncZlp at h
  split_ifs at h with hz
  · cases zlp with
    | ok u =>
      cases h
      rfl
    | error e => cases h
  · cases h
    rfl

theorem syncZlp_kept {w w' : RusbAsyncWriter} {zlp : Except String Unit} {e : RusbmuxError}
    (h : w.syncZlp zlp = (.error e, w')) : w' = { w with transfers := w.transfers ++ [[]] } := by
  unfold syncZlp at h
  split_ifs at h with hz
  · cases zlp with
    | ok u => cases h
    | error e => cases h; rfl
  · cases h

/-- A failed `submit_end` has counted the buffer and resets nothing. -/
theorem submitEnd_kept {w w' : RusbAsyncWriter} {flush zlp : Except String Unit}
    {e : RusbmuxError} (h : w.submitEnd flush zlp = (.error e, w')) :
    w'.handed = w.handed+w.buffer.length ∧
      w'.currentTransferLen = w.currentTransferLen + UInt64.ofNat w.buffer.length := by
  have hf := syncFlush_counts w flush
  unfold submitEnd syncFlushAndZlp at h
  cases hr : w.syncFlush flush with
  | mk r v =>
    rw [hr] at h hf
    cases r with
    | error e' =>
      cases h
      exact hf
    | ok u =>
      have hw := syncZlp_kept h
      rw [hw]
      refine ⟨?_, hf.2⟩
      rw [← hf.1]
      simp only [handed, List.flatten_append, List.flatten_singleton, List.append_nil]

theorem submitEnd_reset {w w' : RusbAsyncWriter} {flush zlp : Except String Unit}
    (h : w.submitEnd flush zlp = (.ok (), w')) : w'.currentTransferLen = 0 := by
  unfold submitEnd syncFlushAndZlp at h
  cases hr : w.syncFlush flush with
  | mk r v =>
    rw [hr] at h
    cases r with
    | error e' => cases h
    | ok u => exact syncZlp_reset h

/-- `submit_end` starts the account anew, or leaves what it has not reset. -/
theorem Inv.submitEnd {s t : ZlpAccount} (h : s.Inv) {flush zlp : Except String Unit}
    (ht : s.step (.submitEnd flush zlp) = some t) : t.Inv := by
  unfold ZlpAccount.step at ht
  cases hr : s.writer.submitEnd flush zlp with
  | mk r w =>
    simp only [hr] at ht
    cases r with
    | ok u =>
      cases ht
      refine ⟨Nat.le_refl _, ?_⟩
      simp only [submitEnd_reset hr, sinceEnd, Nat.sub_self]
      rfl
    | error e =>
      -- the mark moves on, the counter does not: what was counted is stale
      cases ht
      have hw := submitEnd_kept hr
      have hi := (h.hands hw.1 (Nat.add_zero _) hw.2).counted
      refine ⟨Nat.le_refl _, ?_⟩
      simp only [sinceEnd, Nat.sub_self, Nat.add_zero] at hi ⊢
      exact hi

theorem Inv.step {s t : ZlpAccount} (h : s.Inv) {c : Call} (ht : s.step c = some t) :
    t.Inv := by
  cases c with
  | pollWrite submit buf =>
    obtain ⟨⟨r, w⟩, hr, rfl⟩ := Option.map_eq_some_iff.mp ht
    by_cases hc : s.writer.Crosses buf ∧ submit = .ok ()
    -- of the bytes handed over here, only those of the write are counted
    · obtain ⟨hc, rfl⟩ := hc
      rw [pollWrite_of_crosses hc] at hr
      cases hr
      rw [if_pos ⟨hc, rfl⟩]
      refine h.hands ?_ (Nat.add_comm _ _) rfl
      simp only [handed, List.flatten_append, List.flatten_singleton, List.length_append]
    · rw [if_neg hc]
      have hw := pollWrite_hands_nothing hc hr
      exact h.keeps hw.1 hw.2
  | pollFlush submit early =>
    obtain ⟨⟨r, w⟩, hr, rfl⟩ := Option.map_eq_some_iff.mp ht
    obtain ⟨data, hd, hc⟩ := pollFlush_counts hr
    exact h.hands hd (Nat.add_zero _) hc
  | submitEnd flush zlp => exact h.submitEnd ht
  | complete value =>
    obtain ⟨w, hw, rfl⟩ := Option.map_eq_some_iff.mp ht
    unfold RusbAsyncWriter.complete at hw
    split at hw
    · cases hw
      exact h.keeps rfl rfl
    · cases hw

/-- For all calls in any order and all results of the transfers: `submit_end`
always decides by what was handed over since the previous one exactly when what
writes at the threshold leave uncounted balances what failed `submit_end` calls
leave counted, at every decision. -/
theorem accounts_iff_balanced (maxPacketSize : UInt16) (calls : List Call) :
    StepSystem.EveryStep step Accounts (start maxPacketSize) calls ↔
      StepSystem.EveryStep step Balanced (start maxPacketSize) calls := by
  have hs := inv_start maxPacketSize
  constructor
  · apply StepSystem.everyStep_of_everyStep (fun s c t hi ha ht => ?_) hs
    exact ⟨(accounts_iff_balanced_at hi c).mp ha, hi.step ht⟩
  · apply StepSystem.everyStep_of_everyStep (fun s c t hi hb ht => ?_) hs
    exact ⟨(accounts_iff_balanced_at hi c).mpr hb, hi.step ht⟩

/-- One transfer in two writes, of which the second comes to the threshold. -/
def twoWrites (a b : Bytes) : List Call :=
  [.pollWrite (.ok ()) a, .pollWrite (.ok ()) b, .complete (some ⟨0⟩),
    .pollFlush (.ok ()) none, .submitEnd (.ok ()) (.ok ())]

/-- The first write is not counted. -/
theorem twoWrites_unaccounted (maxPacketSize : UInt16) {a b : Bytes} (ha : a ≠ [])
    (hl : a.length < MAX_PACKET_SIZE*2) (hb : b ≠ [])
    (hc : MAX_PACKET_SIZE*2 ≤ a.length+b.length) (hs : b.length < UInt64.size) :
    ¬ StepSystem.EveryStep step Accounts (start maxPacketSize) (twoWrites a b) := by
  have hl' : (start maxPacketSize).writer.buffer.length+a.length < MAX_PACKET_SIZE*2 := by
    simpa only [start, new, List.length_nil, Nat.zero_add] using hl
  have hx : RusbAsyncWriter.Crosses { new maxPacketSize with buffer := a } b := ⟨rfl, hb, hc⟩
  intro h
  have h1 := ((StepSystem.everyStep_cons (step_of_below rfl ha hl')).mp h).2
  have h2 := ((StepSystem.everyStep_cons (step_of_crosses hx)).mp h1).2
  have h3 := ((StepSystem.everyStep_cons rfl).mp h2).2
  have h4 := ((StepSystem.everyStep_cons rfl).mp h3).2
  obtain ⟨t, ht⟩ := step_submitEnd _ (.ok ()) (.ok ())
  have h5 := ((StepSystem.everyStep_cons ht).mp h4).1 (Or.inl rfl)
  have h6 : (0 + UInt64.ofNat b.length).toNat = ([] ++ [a ++ b]).flatten.length-0 := h5.1
  have ha' := List.length_pos_iff.mpr ha
  rw [UInt64.zero_add, UInt64.toNat_ofNat_of_lt' hs, List.nil_append, List.flatten_singleton,
    List.length_append] at h6
  omega

theorem longTransfer_unaccounted :
    ¬ StepSystem.EveryStep step Accounts (start 512) (twoWrites [0] (List.replicate 98303 0)) := by
  apply twoWrites_unaccounted
  · exact List.cons_ne_nil _ _
  · decide
  · exact List.ne_nil_of_length_pos (by rw [List.length_replicate]; decide)
  · rw [List.length_replicate]
    decide
  · rw [List.length_replicate]
    decide

/-- A write comes to the threshold on an empty buffer only, and no transfer of
`submit_end` fails. -/
def Plain (s : ZlpAccount) : Call → Prop
  | .pollWrite submit buf => s.writer.Crosses buf ∧ submit = .ok () → s.writer.buffer = []
  | .submitEnd flush zlp =>
    flush = .ok () ∧ zlp = .ok () ∧ s.sinceEnd+s.writer.buffer.length < UInt64.size
  | _ => True

theorem submitEnd_succeeds (w : RusbAsyncWriter) :
    (w.submitEnd (.ok ()) (.ok ())).1 = .ok () := by
  rw [submitEnd_of_decides (s := ⟨w, 0, 0, 0⟩) (Or.inr rfl)]
  unfold syncZlp
  split_ifs <;> rfl

theorem accounts_of_plain (maxPacketSize : UInt16) {calls : List Call}
    (h : StepSystem.EveryStep step Plain (start maxPacketSize) calls) :
    StepSystem.EveryStep step Accounts (start maxPacketSize) calls := by
  apply StepSystem.everyStep_of_everyStep
    (fun s c t (hi : s.Inv ∧ s.missed = 0 ∧ s.stale = 0) hp ht => ?_)
    ⟨inv_start maxPacketSize, rfl, rfl⟩ h
  obtain ⟨hi, hm, hs⟩ := hi
  refine ⟨(accounts_iff_balanced_at hi c).mpr ?_, hi.step ht, ?_⟩
  · cases c with
    | submitEnd flush zlp =>
      intro _
      rw [hm, hs]
      exact ⟨hp.2.2, rfl⟩
    | pollWrite submit buf => trivial
    | pollFlush submit early => trivial
    | complete value => trivial
  · cases c with
    | pollWrite submit buf =>
      obtain ⟨r, hr, rfl⟩ := Option.map_eq_some_iff.mp ht
      refine ⟨?_, hs⟩
      change (if _ then _ else _) = 0
      split_ifs with hc
      · rw [hm, hp hc, List.length_nil]
      · exact hm
    | pollFlush submit early =>
      obtain ⟨r, hr, rfl⟩ := Option.map_eq_some_iff.mp ht
      exact ⟨hm, hs⟩
    | complete value =>
      obtain ⟨r, hr, rfl⟩ := Option.map_eq_some_iff.mp ht
      exact ⟨hm, hs⟩
    | submitEnd flush zlp =>
      obtain ⟨rfl, rfl, hlt⟩ := hp
      have hok := submitEnd_succeeds s.writer
      cases hr : s.writer.submitEnd (.ok ()) (.ok ()) with
      | mk r w =>
        rw [hr] at hok
        cases hok
        simp only [step, hr] at ht
        cases ht
        exact ⟨rfl, rfl⟩

end ZlpAccount
end Rusbmux
