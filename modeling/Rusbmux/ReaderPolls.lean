import Rusbmux.RusbReader

/-! A task that reads through the bulk reader, while its transfers end at any
time. -/
namespace Rusbmux

namespace RusbAsyncReader

variable {r : RusbAsyncReader} {submit : Except String Unit} {early : Option (Option BulkRead)}

/-- Between two polls: the cursor is in the buffer, and the receiver was not
polled to its end. -/
structure Sound (r : RusbAsyncReader) : Prop where
  pos_le : r.pos ≤ r.buffer.length
  pending : r.pending = none ∨ r.pending = some .waiting ∨
    ∃ result, r.pending = some (.completed (some result))

theorem left_ne_nil_iff : r.left ≠ [] ↔ r.pos < r.buffer.length := by
  rw [left, ne_eq, List.drop_eq_nil_iff, Nat.not_le]

theorem chunkToBuf_fst (r : RusbAsyncReader) (chunk : Bytes) (n : ℕ) :
    (r.chunkToBuf chunk n).1 = chunk.take n := by
  have htake : chunk.take (min chunk.length n) = chunk.take n := by
    rw [← List.take_take, List.take_of_length_le (List.length_take_le' _ _)]
  unfold chunkToBuf
  simp only
  split_ifs <;> exact htake

/-- The rest of the chunk is kept. -/
theorem chunkToBuf_snd (r : RusbAsyncReader) (chunk : Bytes) (n : ℕ) :
    (r.chunkToBuf chunk n).2.left = chunk.drop n ∧
      (r.chunkToBuf chunk n).2.pos ≤ (r.chunkToBuf chunk n).2.buffer.length := by
  unfold chunkToBuf
  by_cases h : min chunk.length n < chunk.length
  · have hmin : min chunk.length n = n := by omega
    rw [if_pos h, hmin]
    refine ⟨rfl, ?_⟩
    change n ≤ chunk.length
    omega
  · have hle : chunk.length ≤ n := by omega
    rw [if_neg h, List.drop_of_length_le hle]
    exact ⟨rfl, Nat.le_refl 0⟩

/-- What is left goes out first. -/
theorem pollRead_of_left (h : r.left ≠ []) (n : ℕ) :
    ∃ r', r.pollRead submit early n = some (.ready (.ok (r.left.take n)), r') ∧
      r'.left = r.left.drop n ∧ r'.pending = r.pending ∧ r'.pos ≤ r'.buffer.length := by
  have hpos := left_ne_nil_iff.mp h
  have hlen : r.left.length = r.buffer.length-r.pos := List.length_drop
  have htake : (r.buffer.drop r.pos).take (min (r.buffer.length-r.pos) n) = r.left.take n := by
    rw [← hlen, ← left, ← List.take_take, List.take_of_length_le (List.length_take_le' _ _)]
  unfold pollRead
  simp only [if_pos hpos, htake]
  by_cases hend : r.pos+min (r.buffer.length-r.pos) n = r.buffer.length
  · rw [if_pos hend]
    refine ⟨_, rfl, ?_, rfl, Nat.le_refl 0⟩
    exact (List.drop_of_length_le (by omega)).symm
  · rw [if_neg hend]
    have hmin : min (r.buffer.length-r.pos) n = n := by omega
    refine ⟨_, rfl, ?_, rfl, ?_⟩
    · simp only [left, hmin, List.drop_drop]
    · change r.pos+min (r.buffer.length-r.pos) n ≤ r.buffer.length
      omega

/-- A later poll picks up what has arrived, unless the transfer failed. -/
theorem pollRead_of_arrived {result : BulkRead} (h : r.left = [])
    (hp : r.pending = some (.completed (some result))) (n : ℕ) :
    ∃ r', r.pollRead submit early n = some (if result.status ≠ 0 then
        .ready (.error ("libusb read: " ++ libusbStatusStr result.status))
      else .ready (.ok (result.data.take n)), r') ∧
      r'.left = (if result.status ≠ 0 then [] else result.data.drop n) ∧ r'.pending = none ∧
      (r.pos ≤ r.buffer.length → r'.pos ≤ r'.buffer.length) := by
  have hpos : ¬ r.pos < r.buffer.length := by
    rw [← left_ne_nil_iff, h]
    exact fun hn => hn rfl
  unfold pollRead drive
  simp only [if_neg hpos, hp, OneshotReceiver.poll]
  by_cases hs : result.status ≠ 0
  · simp only [if_pos hs]
    exact ⟨_, rfl, h, rfl, id⟩
  · have hc := r.chunkToBuf_snd result.data n
    simp only [if_neg hs, ← r.chunkToBuf_fst result.data n]
    exact ⟨_, rfl, hc.1, rfl, fun _ => hc.2⟩

/-- A transfer that has ended by the poll after its submission. -/
theorem pollRead_of_early (hs : r.Submits) (result : BulkRead) (n : ℕ) :
    ∃ r', r.pollRead (.ok ()) (some (some result)) n =
        some (.ready (.ok (result.data.take n)), r') ∧
      r'.left = result.data.drop n ∧ r'.pending = none ∧ r'.pos ≤ r'.buffer.length := by
  have hc := r.chunkToBuf_snd result.data n
  unfold pollRead driveSubmitted
  simp only [if_neg (Nat.not_lt.mpr hs.1), hs.2, Option.elim_some, OneshotReceiver.poll,
    ← r.chunkToBuf_fst result.data n]
  exact ⟨_, rfl, hc.1, rfl, hc.2⟩

theorem pollRead_of_submits (hs : r.Submits) (n : ℕ) :
    r.pollRead (.ok ()) none n = some (.pending, { r with pending := some .waiting }) := by
  unfold pollRead driveSubmitted
  simp only [if_neg (Nat.not_lt.mpr hs.1), hs.2, Option.elim_none, OneshotReceiver.poll]

theorem pollRead_of_refused (hs : r.Submits) (e : String) (n : ℕ) :
    r.pollRead (.error e) early n = some (.ready (.error e), r) := by
  unfold pollRead
  simp only [if_neg (Nat.not_lt.mpr hs.1), hs.2]

theorem pollRead_of_waiting (h : r.left = []) (hp : r.pending = some .waiting) (n : ℕ) :
    r.pollRead submit early n = some (.pending, r) := by
  have hpos : ¬ r.pos < r.buffer.length := by
    rw [← left_ne_nil_iff, h]
    exact fun hn => hn rfl
  have hr : { r with pending := some .waiting } = r := by rw [← hp]
  unfold pollRead drive
  simp only [if_neg hpos, hp, OneshotReceiver.poll, hr]

end RusbAsyncReader

/-- `results` has those of the transfers that have not ended yet, in the order
of their submission, and `outcomes` what the transfers gave to the calls that
returned, with the room of each. -/
structure ReaderPolls where
  reader : RusbAsyncReader
  results : List BulkRead
  outcomes : List (ℕ × Except String Bytes)
  deriving DecidableEq

namespace ReaderPolls

open RusbAsyncReader

inductive Action where
  /-- `early` says that a transfer which this poll submits has ended by the poll
  of its receiver. -/
  | poll (submit : Except String Unit) (remaining : ℕ) (early : Bool)
  | complete

def start (results : List BulkRead) : ReaderPolls := ⟨.new, results, []⟩

/-- The outcomes after a poll. -/
def record (s : ReaderPolls) (remaining : ℕ) : Poll (Except String Bytes) →
    List (ℕ × Except String Bytes)
  | .ready outcome => s.outcomes ++ [(remaining, outcome)]
  | .pending => s.outcomes

def poll (s : ReaderPolls) (submit : Except String Unit) (remaining : ℕ) (early : Bool) :
    Option (Poll (Except String Bytes) × ReaderPolls) :=
  match submit with
  | .ok () => (s.reader.pollRead (.ok ()) (if early then s.results.head?.map some else none)
      remaining).map fun p => (p.1,
        { reader := p.2
          results := if early ∧ s.reader.Submits then s.results.tail else s.results
          outcomes := s.record remaining p.1 })
  | .error e => (s.reader.pollRead (.error e) none remaining).map fun p => (p.1,
      { s with
        reader := p.2
        -- a transfer that is not submitted has no outcome
        outcomes := if s.reader.Submits then s.outcomes else s.record remaining p.1 })

def step (s : ReaderPolls) : Action → Option ReaderPolls
  | .poll submit remaining early => (s.poll submit remaining early).map Prod.snd
  | .complete => match s.results with
    | [] => none
    | result :: results => (s.reader.complete (some result)).map fun reader =>
      { s with reader := reader, results := results }

/-- The transfers that were not picked up yet. -/
def waiting (s : ReaderPolls) : List BulkRead := s.reader.arrived ++ s.results

/-- A transfer that failed has ended by its first poll. -/
def FailsEarly (s : ReaderPolls) : Action → Prop
  | .poll (.ok ()) _ true => s.reader.Submits ∧ ∃ result, s.results.head? = some result ∧
    result.status ≠ 0
  | _ => False

/-- The transfer that a step picks up. -/
def picksUp (s : ReaderPolls) : Action → Option BulkRead
  | .poll submit _ early =>
    if s.reader.left ≠ [] then none
    else match s.reader.pending, submit with
      | some (.completed result), _ => result
      | some _, _ => none
      | none, .ok () => if early then s.results.head? else none
      | none, .error _ => none
  | .complete => none

/-- What a step does, where the reader is a queue of transfers behind the bytes
that are left of one. -/
inductive Move (s : ReaderPolls) (a : Action) (t : ReaderPolls) : Prop where
  | leftover (n : ℕ) (hs : s.reader.left ≠ []) (hl : t.reader.left = s.reader.left.drop n)
      (hw : t.waiting = s.waiting)
      (ho : t.outcomes = s.outcomes ++ [(n, .ok (s.reader.left.take n))])
      (hp : s.picksUp a = none) (hf : ¬ s.FailsEarly a)
  | takes (n : ℕ) (result : BulkRead) (hs : s.reader.left = [])
      (hl : t.reader.left = result.data.drop n) (hw : s.waiting = result :: t.waiting)
      (ho : t.outcomes = s.outcomes ++ [(n, .ok (result.data.take n))])
      (hp : s.picksUp a = some result) (hf : result.status ≠ 0 ↔ s.FailsEarly a)
  | fails (n : ℕ) (result : BulkRead) (hs : s.reader.left = []) (hl : t.reader.left = [])
      (hw : s.waiting = result :: t.waiting) (he : result.status ≠ 0)
      (ho : t.outcomes = s.outcomes ++
        [(n, .error ("libusb read: " ++ libusbStatusStr result.status))])
      (hp : s.picksUp a = some result) (hf : ¬ s.FailsEarly a)
  | quiet (hl : t.reader.left = s.reader.left) (hw : t.waiting = s.waiting)
      (ho : t.outcomes = s.outcomes) (hp : s.picksUp a = none) (hf : ¬ s.FailsEarly a)

variable {s t : ReaderPolls} {a : Action}

/-- A poll that submits nothing only turns to the reader. -/
theorem poll_of_not_submits (hs : ¬ s.reader.Submits) (submit : Except String Unit) (n : ℕ)
    (early : Bool) : ∃ e, s.poll submit n early =
      (s.reader.pollRead submit e n).map fun p =>
        (p.1, { s with reader := p.2, outcomes := s.record n p.1 }) := by
  cases submit with
  | ok u =>
    refine ⟨if early then s.results.head?.map some else none, ?_⟩
    simp only [poll, hs, and_false, if_false]
  | error e =>
    refine ⟨none, ?_⟩
    simp only [poll, hs, if_false]

theorem not_failsEarly (hs : ¬ s.reader.Submits) : ¬ s.FailsEarly a := by
  unfold FailsEarly
  split
  · exact fun h => hs h.1
  · exact id

/-- The bytes that are left come before anything else. -/
theorem move_of_left (hl : s.reader.left ≠ []) (h : s.reader.Sound) {submit : Except String Unit}
    {n : ℕ} {early : Bool} {p : Poll (Except String Bytes)}
    (ht : s.poll submit n early = some (p, t)) :
    Move s (.poll submit n early) t ∧ t.reader.Sound := by
  have hs : ¬ s.reader.Submits := fun hs => Nat.not_lt.mpr hs.1 (left_ne_nil_iff.mp hl)
  obtain ⟨e, he⟩ := poll_of_not_submits hs submit n early
  obtain ⟨r', hr, hleft, hpending, hpos⟩ := s.reader.pollRead_of_left hl n
  rw [he, hr] at ht
  cases ht
  refine ⟨.leftover n hl hleft ?_ rfl (if_pos hl) (not_failsEarly hs), hpos, ?_⟩
  · simp only [waiting, arrived, hpending]
  · simp only [hpending]
    exact h.pending

/-- With nothing left, a poll drives the transfer in flight. -/
theorem move_of_pending (hl : s.reader.left = []) (h : s.reader.Sound)
    (hp : s.reader.pending ≠ none) {submit : Except String Unit} {n : ℕ} {early : Bool}
    {p : Poll (Except String Bytes)} (ht : s.poll submit n early = some (p, t)) :
    Move s (.poll submit n early) t ∧ t.reader.Sound := by
  have hs : ¬ s.reader.Submits := fun hs => hp hs.2
  obtain ⟨e, he⟩ := poll_of_not_submits hs submit n early
  obtain hn | hw | ⟨result, hr⟩ := h.pending
  · exact absurd hn hp
  · rw [he, s.reader.pollRead_of_waiting hl hw] at ht
    cases ht
    refine ⟨.quiet rfl rfl rfl ?_ (not_failsEarly hs), h⟩
    simp only [picksUp, hl, hw, ne_eq, not_true_eq_false, if_false]
  · obtain ⟨r', hread, hleft, hpending, hpos⟩ := s.reader.pollRead_of_arrived hl hr n
    rw [he, hread] at ht
    cases ht
    have hwaiting : s.waiting = result :: s.results := by
      simp only [waiting, arrived, hr, List.cons_append, List.nil_append]
    have hrest : r'.arrived = [] := by simp only [arrived, hpending]
    have hpicks : s.picksUp (.poll submit n early) = some result := by
      simp only [picksUp, hl, hr, ne_eq, not_true_eq_false, if_false]
    refine ⟨?_, hpos h.pos_le, Or.inl hpending⟩
    by_cases hstatus : result.status ≠ 0
    · rw [if_pos hstatus] at hleft ⊢
      refine .fails n result hl hleft ?_ hstatus rfl hpicks (not_failsEarly hs)
      rw [hwaiting, waiting, hrest, List.nil_append]
    · rw [if_neg hstatus] at hleft ⊢
      refine .takes n result hl hleft ?_ rfl hpicks (iff_of_false hstatus (not_failsEarly hs))
      rw [hwaiting, waiting, hrest, List.nil_append]

theorem left_of_submits (hs : s.reader.Submits) : s.reader.left = [] :=
  List.drop_of_length_le hs.1

theorem waiting_of_submits (hs : s.reader.Submits) : s.waiting = s.results := by
  simp only [waiting, arrived, hs.2, List.nil_append]

/-- A poll that submits a transfer, and picks it up at once if it has ended. -/
theorem move_of_submits (hs : s.reader.Submits) (h : s.reader.Sound)
    {submit : Except String Unit} {n : ℕ} {early : Bool} {p : Poll (Except String Bytes)}
    (ht : s.poll submit n early = some (p, t)) :
    Move s (.poll submit n early) t ∧ t.reader.Sound := by
  have hl := left_of_submits hs
  have hw := waiting_of_submits hs
  -- nothing has ended yet: the transfer is in flight
  have hflight (hp : s.picksUp (.poll submit n early) = none)
      (hf : ¬ s.FailsEarly (.poll submit n early))
      (ht : { s with reader := { s.reader with pending := some .waiting } } = t) :
      Move s (.poll submit n early) t ∧ t.reader.Sound := by
    subst ht
    exact ⟨.quiet rfl (by rw [hw]; rfl) rfl hp hf, h.pos_le, Or.inr (Or.inl rfl)⟩
  cases submit with
  | error e =>
    simp only [poll, pollRead_of_refused hs, Option.map_some, if_pos hs] at ht
    cases ht
    refine ⟨.quiet rfl rfl rfl ?_ id, h⟩
    simp only [picksUp, hl, hs.2, ne_eq, not_true_eq_false, if_false]
  | ok u =>
    cases early with
    | false =>
      simp only [poll, Bool.false_eq_true, if_false, pollRead_of_submits hs, Option.map_some,
        false_and] at ht
      cases ht
      refine hflight ?_ id rfl
      simp only [picksUp, hl, hs.2, ne_eq, not_true_eq_false, Bool.false_eq_true, if_false]
    | true =>
      cases hres : s.results with
      | nil =>
        simp only [poll, hres, List.head?_nil, Option.map_none, pollRead_of_submits hs,
          Option.map_some, List.tail_nil, ite_self] at ht
        cases ht
        refine hflight ?_ ?_ ?_
        · simp only [picksUp, hl, hs.2, hres, ne_eq, not_true_eq_false, List.head?_nil, ite_self]
        · rintro ⟨-, result, hhead, -⟩
          rw [hres] at hhead
          cases hhead
        · rw [record, ← hres]
      | cons result results =>
        obtain ⟨r', hread, hleft, hpending, hpos⟩ := s.reader.pollRead_of_early hs result n
        simp only [poll, hres, if_true, List.head?_cons, Option.map_some, hread, List.tail_cons,
          hs, and_self] at ht
        cases ht
        refine ⟨.takes n result hl hleft ?_ rfl ?_ ?_, hpos, Or.inl hpending⟩
        · rw [hw, hres, waiting]
          simp only [arrived, hpending, List.nil_append]
        · simp only [picksUp, hl, hs.2, hres, ne_eq, not_true_eq_false, if_false, if_true,
            List.head?_cons]
        · constructor
          · intro hstatus
            exact ⟨hs, result, by rw [hres]; rfl, hstatus⟩
          · rintro ⟨-, result', hhead, hstatus⟩
            rw [hres] at hhead
            cases hhead
            exact hstatus

theorem move_of_poll (h : s.reader.Sound) {submit : Except String Unit} {n : ℕ} {early : Bool}
    {p : Poll (Except String Bytes)} (ht : s.poll submit n early = some (p, t)) :
    Move s (.poll submit n early) t ∧ t.reader.Sound := by
  by_cases hl : s.reader.left = []
  · by_cases hp : s.reader.pending = none
    · have hpos := mt left_ne_nil_iff.mpr (not_not.mpr hl)
      exact move_of_submits ⟨Nat.not_lt.mp hpos, hp⟩ h ht
    · exact move_of_pending hl h hp ht
  · exact move_of_left hl h ht

/-- Every step is a move, and leaves the reader sound. -/
theorem move_of_step (h : s.reader.Sound) (ht : s.step a = some t) :
    Move s a t ∧ t.reader.Sound := by
  cases a with
  | poll submit n early =>
    obtain ⟨⟨p, t⟩, hpoll, rfl⟩ := Option.map_eq_some_iff.mp ht
    exact move_of_poll h hpoll
  | complete =>
    unfold step at ht
    cases hres : s.results with
    | nil =>
      rw [hres] at ht
      cases ht
    | cons result results =>
      rw [hres] at ht
      obtain ⟨reader, hreader, rfl⟩ := Option.map_eq_some_iff.mp ht
      unfold RusbAsyncReader.complete at hreader
      split at hreader
      case h_1 hp =>
        cases hreader
        refine ⟨.quiet rfl ?_ rfl rfl id, h.pos_le, Or.inr (Or.inr ⟨result, rfl⟩)⟩
        simp only [waiting, arrived, hp, hres, List.cons_append, List.nil_append]
      case h_2 => cases hreader

theorem sound_start (results : List BulkRead) : (start results).reader.Sound :=
  ⟨Nat.le_refl 0, Or.inl rfl⟩

theorem pollRead_returns {r : RusbAsyncReader} (h : r.Sound) (submit : Except String Unit)
    (early : Option (Option BulkRead)) (n : ℕ) : r.pollRead submit early n ≠ none := by
  by_cases hl : r.left = []
  · obtain hp | hp | ⟨result, hp⟩ := h.pending
    · have hs : r.Submits := ⟨Nat.not_lt.mp (mt left_ne_nil_iff.mpr (not_not.mpr hl)), hp⟩
      cases submit with
      | error e => rw [pollRead_of_refused hs]; exact Option.some_ne_none _
      | ok u =>
        unfold pollRead driveSubmitted
        simp only [if_neg (Nat.not_lt.mpr hs.1), hp]
        rcases early with _ | _ | result <;> exact Option.some_ne_none _
    · rw [r.pollRead_of_waiting hl hp]
      exact Option.some_ne_none _
    · obtain ⟨r', hr, -⟩ := @pollRead_of_arrived r submit early result hl hp n
      rw [hr]
      exact Option.some_ne_none _
  · obtain ⟨r', hr, -⟩ := @pollRead_of_left r submit early hl n
    rw [hr]
    exact Option.some_ne_none _

/-- The bytes that the calls have put into their buffers. -/
def delivered (s : ReaderPolls) : Bytes := s.outcomes.flatMap fun o => match o.2 with
  | .ok data => data
  | .error _ => []

/-- All bytes of the transfers. -/
def transferData (results : List BulkRead) : Bytes := results.flatMap BulkRead.data

/-- Every byte of the transfers is delivered, left of the transfer that was
picked up last, or in a transfer that was not picked up. -/
structure Conserves (results : List BulkRead) (s : ReaderPolls) : Prop where
  data : s.delivered ++ (s.reader.buffer.drop s.reader.pos ++ transferData s.waiting) =
    transferData results
  pos_le : s.reader.pos ≤ s.reader.buffer.length
  returns : ∀ submit early remaining, s.reader.pollRead submit early remaining ≠ none

theorem delivered_append {n : ℕ} {data : Bytes}
    (ho : t.outcomes = s.outcomes ++ [(n, .ok data)]) : t.delivered = s.delivered ++ data := by
  simp only [delivered, ho, List.flatMap_append, List.flatMap_cons, List.flatMap_nil,
    List.append_nil]

theorem transferData_cons (result : BulkRead) (results : List BulkRead) :
    transferData (result :: results) = result.data ++ transferData results :=
  List.flatMap_cons

/-- No transfer fails, and no byte is lost so far. -/
structure ConservesInv (results : List BulkRead) (s : ReaderPolls) : Prop where
  sound : s.reader.Sound
  succeed : ∀ result ∈ s.waiting, result.status = 0
  data : s.delivered ++ (s.reader.left ++ transferData s.waiting) = transferData results

theorem ConservesInv.step {results : List BulkRead} (h : ConservesInv results s)
    (ht : s.step a = some t) : ConservesInv results t := by
  obtain ⟨hm, hsound⟩ := move_of_step h.sound ht
  have hdata := h.data
  have hsucceed := h.succeed
  cases hm with
  | leftover n hs hl hw ho hp hf =>
    refine ⟨hsound, hw ▸ hsucceed, ?_⟩
    rw [delivered_append ho, hl, hw, List.append_assoc, ← List.append_assoc (s.reader.left.take n),
      List.take_append_drop]
    exact hdata
  | takes n result hs hl hw ho hp hf =>
    rw [hw] at hsucceed hdata
    refine ⟨hsound, fun r hr => hsucceed r (List.mem_cons_of_mem _ hr), ?_⟩
    rw [hs, List.nil_append, transferData_cons] at hdata
    rw [delivered_append ho, hl, List.append_assoc, ← List.append_assoc (result.data.take n),
      List.take_append_drop]
    exact hdata
  | fails n result hs hl hw he ho hp hf =>
    exact absurd (hsucceed result (hw ▸ List.mem_cons_self)) he
  | quiet hl hw ho hp hf =>
    refine ⟨hsound, hw ▸ hsucceed, ?_⟩
    rw [hl, hw, delivered, ho]
    exact hdata

/-- For any reads and any transfers that succeed, ending at any time. -/
theorem reader_conserves {results : List BulkRead} (h : ∀ result ∈ results, result.status = 0)
    (as : List Action) : StepSystem.EveryState step (Conserves results) (start results) as := by
  have hstart : ConservesInv results (start results) := ⟨sound_start results, h, rfl⟩
  have hrun : StepSystem.EveryState step (ConservesInv results) (start results) as :=
    StepSystem.everyState_of_everyStep (fun s a t hi _ ht => hi.step ht) hstart
      (StepSystem.everyStep_true _ _)
  exact hrun.mono fun t ht => ⟨ht.data, ht.sound.pos_le, pollRead_returns ht.sound⟩

/-- A transfer in three reads, the first without room, before one that is empty. -/
theorem reader_conserves_split : StepSystem.EveryState step
    (Conserves [⟨⟨0⟩, [1, 2, 3]⟩, ⟨⟨0⟩, []⟩]) (start [⟨⟨0⟩, [1, 2, 3]⟩, ⟨⟨0⟩, []⟩])
    [.poll (.ok ()) 0 true, .poll (.ok ()) 2 false, .poll (.ok ()) 2 false,
      .poll (.ok ()) 2 false, .complete, .poll (.ok ()) 2 false] :=
  reader_conserves (by decide) _

end ReaderPolls
end Rusbmux
