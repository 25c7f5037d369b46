import Rusbmux.RusbWriter

/-! A task that writes through the bulk writer: it polls one operation until it
is ready, while every transfer succeeds. It may poll at any time, whether the
operation has woken it or not. -/
namespace Rusbmux

namespace WriterPolls

inductive Op where
  | write (buf : Bytes)
  | flush
  deriving DecidableEq, Repr

inductive Action where
  /-- The task polls; `early` says that a transfer which this poll submits has
  ended by the poll of its receiver. -/
  | poll (op : Op) (early : Bool)
  | submitEnd
  | complete

end WriterPolls

open WriterPolls in
/-- `current` is the operation that was answered with `Pending` last, `returned`
the bytes of the writes that returned. -/
structure WriterPolls where
  writer : RusbAsyncWriter
  current : Option Op
  returned : Bytes
  panicked : Bool
  deriving DecidableEq, Repr

namespace WriterPolls

open RusbAsyncWriter

/-- A transfer that succeeds. -/
def success : BulkResult := ⟨0⟩

def pollOp (w : RusbAsyncWriter) (early : Bool) : Op →
    Option (Poll (Except String ℕ) × RusbAsyncWriter)
  | .write buf => w.pollWrite (.ok ()) buf
  | .flush => (w.pollFlush (.ok ()) (if early then some (some success) else none)).map fun r =>
    match r.1 with
    | .ready (.ok ()) => (.ready (.ok 0), r.2)
    | .ready (.error e) => (.ready (.error e), r.2)
    | .pending => (.pending, r.2)

/-- The bytes of an operation that are taken when it returns `n`. -/
def Op.taken (n : ℕ) : Op → Bytes
  | .write buf => buf.take n
  | .flush => []

/-- After `Pending` the task polls the same operation again. -/
def step (s : WriterPolls) : Action → Option WriterPolls
  | .poll op early =>
    if s.panicked = false ∧ (s.current = none ∨ s.current = some op) then
      match pollOp s.writer early op with
      | none => some { s with panicked := true }
      | some (.pending, w) => some { s with writer := w, current := some op }
      | some (.ready (.ok n), w) => some { s with
          writer := w
          current := none
          returned := s.returned ++ op.taken n }
      | some (.ready (.error _), w) => some { s with writer := w, current := none }
    else none
  | .submitEnd =>
    if s.panicked = false ∧ s.current = none then
      some { s with writer := (s.writer.submitEnd (.ok ()) (.ok ())).2 }
    else none
  | .complete => (s.writer.complete (some success)).map fun w => { s with writer := w }

def start (maxPacketSize : UInt16) : WriterPolls where
  writer := RusbAsyncWriter.new maxPacketSize
  current := none
  returned := []
  panicked := false

/-- The bytes of a write that has been taken and has not returned. -/
def inFlight (s : WriterPolls) : Bytes :=
  match s.current with
  | some (.write buf) => buf
  | _ => []

/-- Every byte that was taken stands once, in order, in a transfer or behind
them in the buffer. -/
def InOrder (s : WriterPolls) : Prop :=
  s.writer.transfers.flatten ++ s.writer.buffer = s.returned ++ s.inFlight

/-- No poll panics on a receiver that has been polled to completion, and a write
at the threshold returns its length once its transfer has ended. -/
def Honours (s : WriterPolls) : Action → Prop
  | .poll op early =>
    pollOp s.writer early op ≠ none ∧
    ∀ buf value, op = .write buf → s.current = some (.write buf) →
      s.writer.pending = some (.completed value) →
      ∃ w, pollOp s.writer early op = some (.ready (.ok buf.length), w)
  | _ => True

/-- The operation at hand can still return, with all its bytes. -/
def CanReturn (s : WriterPolls) : Prop :=
  StepSystem.CanReach step (fun t => t.current = none ∧ t.returned = s.returned ++ s.inFlight) s

/-- No write brings the buffer to the threshold. -/
def BelowThreshold (s : WriterPolls) : Action → Prop
  | .poll (.write buf) _ => ¬ s.writer.Crosses buf
  | _ => True

/-- What a step can do, where a pending transfer belongs to the operation that
was answered with `Pending`. -/
inductive Move (s : WriterPolls) : Action → WriterPolls → Prop where
  | empty (early : Bool) (hc : s.current = none) : Move s (.poll (.write []) early) s
  | below (buf : Bytes) (early : Bool) (hc : s.current = none) (hb : buf ≠ [])
      (hl : s.writer.buffer.length+buf.length < MAX_PACKET_SIZE*2) :
      Move s (.poll (.write buf) early) { s with
        writer := { s.writer with buffer := s.writer.buffer ++ buf }
        returned := s.returned ++ buf }
  | crosses (buf : Bytes) (early : Bool) (hc : s.current = none) (hx : s.writer.Crosses buf) :
      Move s (.poll (.write buf) early) { s with
        writer := { s.writer with
          buffer := []
          transfers := s.writer.transfers ++ [s.writer.buffer ++ buf]
          currentTransferLen := s.writer.currentTransferLen + UInt64.ofNat buf.length
          pending := some .waiting }
        current := some (.write buf) }
  | waits (buf : Bytes) (early : Bool) (hc : s.current = some (.write buf))
      (hp : s.writer.pending = some .waiting) : Move s (.poll (.write buf) early) s
  | takes (buf : Bytes) (early : Bool) (hc : s.current = some (.write buf))
      (hp : s.writer.pending = some (.completed (some success))) :
      Move s (.poll (.write buf) early)
        { s with writer := { s.writer with pending := some .taken } }
  | panics (buf : Bytes) (early : Bool) (hc : s.current = some (.write buf))
      (hp : s.writer.pending = some .taken) :
      Move s (.poll (.write buf) early) { s with panicked := true }
  | flushes (early : Bool) {t : WriterPolls} (hc : s.current = none ∨ s.current = some .flush)
      (hb : t.writer.transfers.flatten ++ t.writer.buffer =
        s.writer.transfers.flatten ++ s.writer.buffer)
      (hr : t.returned = s.returned) (hx : t.panicked = s.panicked)
      (ht : t.current = none ∧ t.writer.pending = none ∨
        t.current = some .flush ∧ t.writer.pending = some .waiting) :
      Move s (.poll .flush early) t
  | ends {t : WriterPolls} (hc : s.current = none)
      (hb : t.writer.transfers.flatten ++ t.writer.buffer =
        s.writer.transfers.flatten ++ s.writer.buffer)
      (hp : t.writer.pending = s.writer.pending)
      (ht : t = { s with writer := t.writer }) : Move s .submitEnd t
  | completes (hp : s.writer.pending = some .waiting) : Move s .complete
      { s with writer := { s.writer with pending := some (.completed (some success)) } }

/-- The receiver of a transfer that belongs to the operation. -/
def Owned (s : WriterPolls) : Prop :=
  match s.current with
  | none => s.writer.pending = none
  | some .flush => s.writer.pending = some .waiting ∨
    s.writer.pending = some (.completed (some success))
  | some (.write _) => s.writer.pending = some .waiting ∨
    s.writer.pending = some (.completed (some success)) ∨ s.writer.pending = some .taken

theorem drive_success {w w' : RusbAsyncWriter} {rx : OneshotReceiver BulkResult}
    {r : Poll (Except String Unit)} (hrx : rx = .waiting ∨ rx = .completed (some success))
    (h : w.drive rx = some (r, w')) :
    w' = { w with pending := some .waiting } ∧ r = .pending ∨
      w' = { w with pending := none } ∧ r = .ready (.ok ()) := by
  obtain rfl | rfl := hrx
  · cases h
    exact Or.inl ⟨rfl, rfl⟩
  · cases h
    exact Or.inr ⟨rfl, rfl⟩

/-- While transfers succeed, `poll_flush` moves the buffer to the transfers. -/
theorem pollFlush_success {w w' : RusbAsyncWriter} {early : Bool} {r : Poll (Except String Unit)}
    (hp : w.pending = none ∨ w.pending = some .waiting ∨
      w.pending = some (.completed (some success)))
    (h : w.pollFlush (.ok ()) (if early then some (some success) else none) = some (r, w')) :
    w'.transfers.flatten ++ w'.buffer = w.transfers.flatten ++ w.buffer ∧
      (w'.pending = some .waiting ∧ r = .pending ∨ w'.pending = none ∧ r = .ready (.ok ())) := by
  unfold pollFlush at h
  obtain hp | hp := hp
  · rw [hp] at h
    by_cases hb : w.buffer = []
    · simp only [if_pos hb] at h
      cases h
      exact ⟨rfl, Or.inr ⟨hp, rfl⟩⟩
    · simp only [if_neg hb] at h
      have he : (if early then some (some success) else none).elim OneshotReceiver.waiting
          OneshotReceiver.completed = .waiting ∨
          (if early then some (some success) else none).elim OneshotReceiver.waiting
          OneshotReceiver.completed = .completed (some success) := by
        cases early
        · exact Or.inl rfl
        · exact Or.inr rfl
      have hf : (w.transfers ++ [w.buffer]).flatten ++ [] = w.transfers.flatten ++ w.buffer := by
        rw [List.append_nil, List.flatten_append, List.flatten_singleton]
      obtain ⟨rfl, rfl⟩ | ⟨rfl, rfl⟩ := drive_success he h
      · exact ⟨hf, Or.inl ⟨rfl, rfl⟩⟩
      · exact ⟨hf, Or.inr ⟨rfl, rfl⟩⟩
  · have hrx : ∃ rx, w.pending = some rx ∧
        (rx = .waiting ∨ rx = .completed (some success)) := by
      obtain hp | hp := hp
      · exact ⟨_, hp, Or.inl rfl⟩
      · exact ⟨_, hp, Or.inr rfl⟩
    obtain ⟨rx, hp, hrx⟩ := hrx
    rw [hp] at h
    obtain ⟨rfl, rfl⟩ | ⟨rfl, rfl⟩ := drive_success hrx h
    · exact ⟨rfl, Or.inl ⟨rfl, rfl⟩⟩
    · exact ⟨rfl, Or.inr ⟨rfl, rfl⟩⟩

theorem drive_returns {w : RusbAsyncWriter} {rx : OneshotReceiver BulkResult}
    (hrx : rx ≠ .taken) : w.drive rx ≠ none := by
  cases rx with
  | waiting => exact Option.some_ne_none _
  | taken => exact absurd rfl hrx
  | completed value =>
    cases value with
    | none => exact Option.some_ne_none _
    | some result =>
      simp only [drive, OneshotReceiver.poll]
      split_ifs <;> exact Option.some_ne_none _

theorem pollFlush_returns {w : RusbAsyncWriter} (early : Option (Option BulkResult))
    (hp : w.pending ≠ some .taken) : w.pollFlush (.ok ()) early ≠ none := by
  unfold pollFlush
  cases hrx : w.pending with
  | some rx => exact drive_returns fun h => hp (by rw [hrx, h])
  | none =>
    simp only
    split_ifs with hb
    · exact Option.some_ne_none _
    · apply drive_returns
      cases early with
      | none => exact fun h => by cases h
      | some value => exact fun h => by cases h

/-- While transfers succeed, `submit_end` moves the buffer to the transfers. -/
theorem submitEnd_success (w : RusbAsyncWriter) :
    let w' := (w.submitEnd (.ok ()) (.ok ())).2
    w'.transfers.flatten ++ w'.buffer = w.transfers.flatten ++ w.buffer ∧
      w'.pending = w.pending := by
  have hz : ∀ v : RusbAsyncWriter, (v.syncZlp (.ok ())).2.transfers.flatten = v.transfers.flatten ∧
      (v.syncZlp (.ok ())).2.buffer = v.buffer ∧ (v.syncZlp (.ok ())).2.pending = v.pending := by
    intro v
    unfold syncZlp
    split_ifs
    · refine ⟨?_, rfl, rfl⟩
      simp only [List.flatten_append, List.flatten_singleton, List.append_nil]
    · exact ⟨rfl, rfl, rfl⟩
  unfold submitEnd syncFlushAndZlp syncFlush
  split_ifs with hb
  · obtain ⟨ht, hb', hp⟩ := hz w
    exact ⟨by rw [ht, hb'], hp⟩
  · obtain ⟨ht, hb', hp⟩ := hz { w with
      buffer := []
      currentTransferLen := w.currentTransferLen + UInt64.ofNat w.buffer.length
      transfers := w.transfers ++ [w.buffer] }
    refine ⟨?_, hp⟩
    simp only [ht, hb', List.flatten_append, List.flatten_singleton, List.append_nil]

theorem Owned.move_write {s t : WriterPolls} (h : s.Owned) {buf : Bytes} {early : Bool}
    (ht : s.step (.poll (.write buf) early) = some t) : s.Move (.poll (.write buf) early) t := by
  simp only [step] at ht
  split_ifs at ht with hc
  obtain ⟨hx, hc⟩ := hc
  obtain ⟨w, current, returned, panicked⟩ := s
  obtain rfl | rfl := hc
  -- a new write: nothing is pending, and its length decides
  · have hp : w.pending = none := h
    by_cases hb : buf = []
    · subst hb
      simp only [pollOp, pollWrite, hp, if_true, Op.taken, List.take_nil, List.append_nil] at ht
      cases ht
      exact .empty early rfl
    · by_cases hl : MAX_PACKET_SIZE*2 ≤ w.buffer.length+buf.length
      · simp only [pollOp, pollWrite_of_crosses ⟨hp, hb, hl⟩] at ht
        cases ht
        exact .crosses buf early rfl ⟨hp, hb, hl⟩
      · have hl' := Nat.not_le.mp hl
        simp only [pollOp, pollWrite_of_below hp hb hl', Op.taken, List.take_length] at ht
        cases ht
        exact .below buf early rfl hb hl'
  -- the write is polled again: the receiver decides, whatever the bytes are
  · obtain hp | hp | hp : w.pending = some .waiting ∨
        w.pending = some (.completed (some success)) ∨ w.pending = some .taken := h
    · have hw : { w with pending := some .waiting } = w := by rw [← hp]
      simp only [pollOp, pollWrite, hp, OneshotReceiver.poll, hw] at ht
      cases ht
      exact .waits buf early rfl hp
    · simp only [pollOp, pollWrite, hp, OneshotReceiver.poll] at ht
      cases ht
      exact .takes buf early rfl hp
    · simp only [pollOp, pollWrite, hp, OneshotReceiver.poll] at ht
      cases ht
      exact .panics buf early rfl hp

theorem Owned.move_flush {s t : WriterPolls} (h : s.Owned) {early : Bool}
    (ht : s.step (.poll .flush early) = some t) : s.Move (.poll .flush early) t := by
  simp only [step] at ht
  split_ifs at ht with hc
  obtain ⟨hx, hc⟩ := hc
  have hp : s.writer.pending = none ∨ s.writer.pending = some .waiting ∨
      s.writer.pending = some (.completed (some success)) := by
    obtain hc | hc := hc
    · exact Or.inl (by simpa only [Owned, hc] using h)
    · exact Or.inr (by simpa only [Owned, hc] using h)
  have hne : s.writer.pending ≠ some .taken := by
    intro he
    rw [he] at hp
    simp at hp
  cases hr : s.writer.pollFlush (.ok ()) (if early then some (some success) else none) with
  | none => exact absurd hr (pollFlush_returns _ hne)
  | some r =>
    obtain ⟨r, w⟩ := r
    have hw := pollFlush_success hp hr
    simp only [pollOp, hr, Option.map_some] at ht
    obtain ⟨hb, ⟨hw, rfl⟩ | ⟨hw, rfl⟩⟩ := hw
    · cases ht
      exact .flushes early hc hb rfl rfl (Or.inr ⟨rfl, hw⟩)
    · cases ht
      exact .flushes early hc hb (List.append_nil _) rfl (Or.inl ⟨rfl, hw⟩)

theorem Owned.move {s t : WriterPolls} (h : s.Owned) {a : Action} (ht : s.step a = some t) :
    s.Move a t := by
  cases a with
  | submitEnd =>
    unfold step at ht
    split_ifs at ht with hc
    cases ht
    have hw := submitEnd_success s.writer
    exact .ends hc.2 hw.1 hw.2 rfl
  | complete =>
    obtain ⟨w, hw, rfl⟩ := Option.map_eq_some_iff.mp ht
    unfold RusbAsyncWriter.complete at hw
    split at hw
    case h_1 hp =>
      cases hw
      exact .completes hp
    case h_2 => cases hw
  | poll op early =>
    cases op with
    | write buf => exact h.move_write ht
    | flush => exact h.move_flush ht

theorem Owned.step {s t : WriterPolls} (h : s.Owned) {a : Action} (ht : s.step a = some t) :
    t.Owned := by
  cases h.move ht with
  | empty early hc => exact h
  | below buf early hc hb hl => simpa only [Owned, hc] using h
  | crosses buf early hc hx => exact Or.inl rfl
  | waits buf early hc hp => exact h
  | takes buf early hc hp => simp only [Owned, hc, or_true]
  | panics buf early hc hp => simpa only [Owned, hc] using h
  | flushes early hc hb hr hx hw =>
    obtain ⟨hc, hp⟩ | ⟨hc, hp⟩ := hw
    · simp only [Owned, hc, hp]
    · simp only [Owned, hc, hp, true_or]
  | ends hc hb hp hw =>
    rw [hw]
    simp only [Owned, hc, hp] at h ⊢
    exact h
  | completes hp =>
    cases hc : s.current with
    | none =>
      simp only [Owned, hc] at h
      rw [h] at hp
      cases hp
    | some op => cases op <;> simp only [Owned, true_or, or_true]

theorem InOrder.step {s t : WriterPolls} (hi : s.InOrder) (h : s.Owned) {a : Action}
    (ht : s.step a = some t) : t.InOrder := by
  unfold InOrder at hi ⊢
  cases h.move ht with
  | empty early hc => exact hi
  | waits buf early hc hp => exact hi
  | takes buf early hc hp => exact hi
  | panics buf early hc hp => exact hi
  | completes hp => exact hi
  | below buf early hc hb hl =>
    simp only [inFlight, hc, List.append_nil] at hi ⊢
    rw [← List.append_assoc, hi]
  | crosses buf early hc hx =>
    -- the transfer takes the buffer and the write, which is in flight from here
    simp only [inFlight, hc, List.append_nil, List.flatten_append, List.flatten_singleton] at hi ⊢
    rw [← List.append_assoc, hi]
  | flushes early hc hb hr hx hw =>
    have hs : s.inFlight = [] := by
      obtain hc | hc := hc <;> simp only [inFlight, hc]
    have ht : t.inFlight = [] := by
      obtain hc | hc := hw <;> simp only [inFlight, hc]
    rw [hb, hi, hr, hs, ht]
  | ends hc hb hp hw =>
    rw [hb, hi, hw]
    rfl

theorem pollWrite_returns {w : RusbAsyncWriter} (buf : Bytes) (hp : w.pending ≠ some .taken) :
    w.pollWrite (.ok ()) buf ≠ none := by
  cases hrx : w.pending with
  | some rx =>
    simp only [pollWrite, hrx]
    cases rx with
    | waiting => exact Option.some_ne_none _
    | taken => exact absurd hrx hp
    | completed value =>
      cases value with
      | none => exact Option.some_ne_none _
      | some result =>
        simp only [OneshotReceiver.poll]
        split_ifs <;> exact Option.some_ne_none _
  | none =>
    by_cases hb : buf = []
    · simp only [pollWrite, hrx, if_pos hb]
      exact Option.some_ne_none _
    · by_cases hl : MAX_PACKET_SIZE*2 ≤ w.buffer.length+buf.length
      · rw [pollWrite_of_crosses ⟨hrx, hb, hl⟩]
        exact Option.some_ne_none _
      · rw [pollWrite_of_below hrx hb (Nat.not_le.mp hl)]
        exact Option.some_ne_none _

theorem pollOp_returns {w : RusbAsyncWriter} (early : Bool) (op : Op)
    (hp : w.pending ≠ some .taken) : pollOp w early op ≠ none := by
  cases op with
  | write buf => exact pollWrite_returns buf hp
  | flush => exact fun h => pollFlush_returns _ hp (Option.map_eq_none_iff.mp h)

/-- What holds while no write comes to the threshold. -/
structure Flowing (s : WriterPolls) : Prop where
  owned : s.Owned
  inOrder : s.InOrder
  running : s.panicked = false
  noWrite : ∀ buf, s.current ≠ some (.write buf)

theorem flowing_start (maxPacketSize : UInt16) : (start maxPacketSize).Flowing :=
  ⟨rfl, rfl, rfl, fun _ hc => by cases hc⟩

/-- A flush returns when its transfer has ended. -/
theorem Flowing.canReturn {s : WriterPolls} (h : s.Flowing) : s.CanReturn := by
  have hpoll {t : WriterPolls} (hrunning : t.panicked = false) (hc : t.current = some .flush)
      (hp : t.writer.pending = some (.completed (some success))) :
      StepSystem.CanReach step (fun u => u.current = none ∧ u.returned = t.returned ++ t.inFlight)
        t := by
    refine StepSystem.CanReach.of_step (a := .poll .flush false) (t := { t with
      writer := { t.writer with pending := none }
      current := none }) ?_ (StepSystem.CanReach.now ⟨rfl, ?_⟩)
    · simp only [step, hrunning, hc, or_true, and_self, if_true, pollOp, pollFlush, hp, drive,
        OneshotReceiver.poll, success, ne_eq, not_true_eq_false, if_false, Option.map_some,
        Op.taken, List.append_nil]
    · simp only [inFlight, hc, List.append_nil]
  unfold CanReturn
  cases hc : s.current with
  | none => exact StepSystem.CanReach.now ⟨hc, by simp only [inFlight, hc, List.append_nil]⟩
  | some op =>
    cases op with
    | write buf => exact absurd hc (h.noWrite buf)
    | flush =>
      have howned := h.owned
      simp only [Owned, hc] at howned
      rcases howned with hp | hp
      · -- the transfer ends, and the task polls again
        have hstep : s.step .complete = some { s with
            writer := { s.writer with pending := some (.completed (some success)) } } := by
          simp only [step, RusbAsyncWriter.complete, hp, Option.map_some]
        exact StepSystem.CanReach.of_step hstep (hpoll h.running hc rfl)
      · exact hpoll h.running hc hp

theorem Flowing.step {s t : WriterPolls} (h : s.Flowing) {a : Action} (ha : s.BelowThreshold a)
    (ht : s.step a = some t) : t.Flowing := by
  have hrest : t.panicked = false ∧ ∀ buf, t.current ≠ some (.write buf) := by
    cases h.owned.move ht with
    | empty early hc => exact ⟨h.running, h.noWrite⟩
    | below buf early hc hb hl => exact ⟨h.running, h.noWrite⟩
    | crosses buf early hc hx => exact absurd hx ha
    | waits buf early hc hp => exact absurd hc (h.noWrite buf)
    | takes buf early hc hp => exact absurd hc (h.noWrite buf)
    | panics buf early hc hp => exact absurd hc (h.noWrite buf)
    | flushes early hc hb hr hx hw =>
      refine ⟨hx.trans h.running, fun buf hwrite => ?_⟩
      rcases hw with ⟨hw, -⟩ | ⟨hw, -⟩ <;> cases hw.symm.trans hwrite
    | ends hc hb hp hw =>
      rw [hw]
      exact ⟨h.running, h.noWrite⟩
    | completes hp => exact ⟨h.running, h.noWrite⟩
  exact ⟨h.owned.step ht, h.inOrder.step h.owned ht, hrest.1, hrest.2⟩

/-- Nothing is in flight that a write waits for, so no poll can break the contract. -/
theorem Flowing.honours {s : WriterPolls} (h : s.Flowing) (a : Action) : s.Honours a := by
  cases a with
  | submitEnd | complete => trivial
  | poll op early =>
    refine ⟨pollOp_returns early op fun htaken => ?_,
      fun buf value _ hc => absurd hc (h.noWrite buf)⟩
    have howned := h.owned
    cases hc : s.current with
    | none =>
      simp only [Owned, hc, htaken] at howned
      cases howned
    | some op =>
      cases op with
      | write buf => exact h.noWrite buf hc
      | flush =>
        simp only [Owned, hc, htaken] at howned
        rcases howned with hp | hp <;> cases hp

/-- A write that has come to the threshold never returns. -/
theorem write_never_returns {s t : WriterPolls} {buf : Bytes} (h : s.Owned)
    (hc : s.current = some (.write buf)) {actions : List Action}
    (ht : StepSystem.after step s actions = some t) : t.current = some (.write buf) := by
  have hi : t.Owned ∧ t.current = some (.write buf) := by
    apply StepSystem.after_induction (fun s a t hi hst => ?_) ⟨h, hc⟩ ht
    obtain ⟨h, hc⟩ := hi
    refine ⟨h.step hst, ?_⟩
    cases h.move hst with
    | waits buf' early hc' hp => exact hc
    | takes buf' early hc' hp => exact hc
    | panics buf' early hc' hp => exact hc
    | completes hp => exact hc
    | empty early hc' => cases hc.symm.trans hc'
    | below buf' early hc' hb hl => cases hc.symm.trans hc'
    | crosses buf' early hc' hx => cases hc.symm.trans hc'
    | flushes early hc' hb hr hx hw =>
      obtain hc' | hc' := hc' <;> cases hc.symm.trans hc'
    | ends hc' hb hp hw => cases hc.symm.trans hc'
  exact hi.2

/-- A write that comes to the threshold is not below it. -/
theorem Flowing.belowThreshold {s t : WriterPolls} (h : s.Flowing) {a : Action}
    (ht : s.step a = some t) (hreturn : t.CanReturn) : s.BelowThreshold a := by
  cases a with
  | submitEnd | complete => trivial
  | poll op early =>
    cases op with
    | flush => trivial
    | write buf =>
      intro hx
      have hcurrent : t.current = some (.write buf) := by
        cases h.owned.move ht with
        | empty early hc => exact absurd rfl hx.2.1
        | below buf early hc hb hl => exact absurd hx.2.2 (Nat.not_le.mpr hl)
        | crosses buf early hc hx => rfl
        | waits buf early hc hp => exact absurd hc (h.noWrite buf)
        | takes buf early hc hp => exact absurd hc (h.noWrite buf)
        | panics buf early hc hp => exact absurd hc (h.noWrite buf)
      obtain ⟨as, u, hu, hnone, -⟩ := hreturn
      cases hnone.symm.trans (write_never_returns (h.owned.step ht) hcurrent hu)

/-- Over all writes, flushes and ends of packets, with the transfers ending at
any time and a caller that polls each operation until it is ready: the bytes go
out once and in order, every operation can return with all its bytes, and no
receiver is polled after its end, exactly in the runs where no write brings the
buffer to the threshold. -/
theorem returns_iff_belowThreshold (maxPacketSize : UInt16) (actions : List Action) :
    (StepSystem.EveryStep step Honours (start maxPacketSize) actions ∧
      StepSystem.EveryState step (fun s => s.InOrder ∧ s.CanReturn) (start maxPacketSize)
        actions) ↔
      StepSystem.EveryStep step BelowThreshold (start maxPacketSize) actions := by
  have hstates : StepSystem.EveryState step (fun s => s.InOrder ∧ s.CanReturn)
      (start maxPacketSize) actions ↔
      StepSystem.EveryStep step BelowThreshold (start maxPacketSize) actions :=
    StepSystem.everyState_iff_everyStep
      (fun _ _ _ h ht => ⟨fun ha => h.step ha ht, fun hq => h.belowThreshold ht hq.2⟩)
      (fun _ h => ⟨h.inOrder, h.canReturn⟩) (flowing_start maxPacketSize) actions
  rw [hstates]
  refine and_iff_right_of_imp fun h => ?_
  exact StepSystem.everyStep_of_everyStep (fun _ a _ hs ha ht => ⟨hs.honours a, hs.step ha ht⟩)
    (flowing_start maxPacketSize) h

theorem step_of_ended {s : WriterPolls} {buf : Bytes} (hx : s.panicked = false)
    (hc : s.current = some (.write buf))
    (hp : s.writer.pending = some (.completed (some success))) (early : Bool) :
    s.step (.poll (.write buf) early) =
      some { s with writer := { s.writer with pending := some .taken } } := by
  have hcur : { s with current := some (.write buf) } = s := by rw [← hc]
  simp only [step, hx, hc, or_true, and_self, if_true, pollOp, pollWrite, hp,
    OneshotReceiver.poll]
  rw [← hcur]
  rfl

theorem write_breaks (maxPacketSize : UInt16) {buf : Bytes}
    (hl : MAX_PACKET_SIZE*2 ≤ buf.length) :
    ¬ StepSystem.EveryStep step Honours (start maxPacketSize)
      [.poll (.write buf) false, .complete, .poll (.write buf) false] := by
  have hb : buf ≠ [] := by
    rintro rfl
    exact absurd hl (by decide)
  have hx : (new maxPacketSize).Crosses buf := ⟨rfl, hb, by
    simpa only [new, List.length_nil, Nat.zero_add] using hl⟩
  have h1 : (start maxPacketSize).step (.poll (.write buf) false) =
      some { start maxPacketSize with
        writer := { new maxPacketSize with
          transfers := [buf]
          currentTransferLen := 0 + UInt64.ofNat buf.length
          pending := some .waiting }
        current := some (.write buf) } := by
    simp only [step, start, pollOp, pollWrite_of_crosses hx, true_or, and_self, if_true]
    rfl
  intro h
  have h2 := ((StepSystem.everyStep_cons h1).mp h).2
  have h3 := ((StepSystem.everyStep_cons rfl).mp h2).2
  have h4 := ((StepSystem.everyStep_cons (step_of_ended rfl rfl rfl false)).mp h3).1
  obtain ⟨w, hw⟩ := h4.2 buf _ rfl rfl rfl
  cases hw

/-- The caller polls once more when the transfer has ended. -/
theorem long_write_breaks :
    ¬ (StepSystem.EveryStep step Honours (start 512)
        [.poll (.write (List.replicate 98304 0)) false, .complete,
          .poll (.write (List.replicate 98304 0)) false] ∧
      StepSystem.EveryState step (fun s => s.InOrder ∧ s.CanReturn) (start 512)
        [.poll (.write (List.replicate 98304 0)) false, .complete,
          .poll (.write (List.replicate 98304 0)) false]) := by
  have hl : MAX_PACKET_SIZE*2 ≤ (List.replicate 98304 (0 : UInt8)).length := by
    rw [List.length_replicate]
    decide
  generalize List.replicate 98304 (0 : UInt8) = buf at hl ⊢
  intro h
  exact write_breaks 512 hl h.1

end WriterPolls
end Rusbmux
