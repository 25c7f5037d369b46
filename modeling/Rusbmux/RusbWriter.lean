import Rusbmux.MuxPacket
import Rusbmux.Errors
import Rusbmux.StepSystem
import Mathlib.Data.Int.Notation

/-! The writer of the bulk endpoint in src/usb_backend/rusb.rs, and the length
by which it decides about a zero-length packet. -/
namespace Rusbmux

/-- What a poll returns, where it returns. -/
inductive Poll (α : Type) where
  | ready (value : α)
  | pending
  deriving DecidableEq, Repr

/-- The receiver of a oneshot channel. -/
inductive OneshotReceiver (α : Type) where
  | waiting
  /-- The value is there; there is none when the sender is gone. -/
  | completed (value : Option α)
  /-- A poll has returned what was there: the next one panics. -/
  | taken
  deriving DecidableEq, Repr

def OneshotReceiver.poll {α : Type} :
    OneshotReceiver α → Option (Poll (Option α) × OneshotReceiver α)
  | .waiting => some (.pending, .waiting)
  | .completed value => some (.ready value, .taken)
  | .taken => none

/-- `usize::is_multiple_of` -/
def isMultipleOf (n m : ℕ) : Bool := if m = 0 then n == 0 else n % m == 0

theorem isMultipleOf_iff (n m : ℕ) : isMultipleOf n m = true ↔ m ∣ n := by
  unfold isMultipleOf
  split_ifs with h
  · rw [h, beq_iff_eq, Nat.zero_dvd]
  · rw [beq_iff_eq, Nat.dvd_iff_mod_eq_zero]

/-- The result of a transfer, of which the writer reads the status. -/
structure BulkResult where
  status : ℤ
  deriving DecidableEq, Repr

def libusbStatusStr (status : ℤ) : String :=
  match status with
  | -1 => "LIBUSB_ERROR_IO"
  | -2 => "LIBUSB_ERROR_INVALID_PARAM"
  | -3 => "LIBUSB_ERROR_ACCESS"
  | -4 => "LIBUSB_ERROR_NO_DEVICE"
  | -5 => "LIBUSB_ERROR_NOT_FOUND"
  | -6 => "LIBUSB_ERROR_BUSY"
  | -7 => "LIBUSB_ERROR_TIMEOUT"
  | -8 => "LIBUSB_ERROR_OVERFLOW"
  | -9 => "LIBUSB_ERROR_PIPE"
  | -10 => "LIBUSB_ERROR_INTERRUPTED"
  | -11 => "LIBUSB_ERROR_NO_MEM"
  | -12 => "LIBUSB_ERROR_NOT_SUPPORTED"
  | status => "LIBUSB_ERROR_UNKNOWN(" ++ toString status ++ ")"

/-- `transfers` stands for the handle and the endpoint: what was handed to them,
oldest first. -/
structure RusbAsyncWriter where
  maxPacketSize : ℕ
  buffer : Bytes
  currentTransferLen : UInt64
  pending : Option (OneshotReceiver BulkResult)
  transfers : List Bytes
  deriving DecidableEq, Repr

namespace RusbAsyncWriter

def new (maxPacketSize : UInt16) : RusbAsyncWriter where
  maxPacketSize := maxPacketSize.toNat
  buffer := []
  currentTransferLen := 0
  pending := none
  transfers := []

/-- The bytes handed to the endpoint so far. -/
def handed (w : RusbAsyncWriter) : ℕ := w.transfers.flatten.length

/-- The first half of `sync_flush_and_zlp`: the buffer goes out. -/
def syncFlush (w : RusbAsyncWriter) (write : Except String Unit) :
    Except RusbmuxError Unit × RusbAsyncWriter :=
  if w.buffer = [] then (.ok (), w)
  else
    let w := { w with
      buffer := []
      currentTransferLen := w.currentTransferLen + UInt64.ofNat w.buffer.length
      transfers := w.transfers ++ [w.buffer] }
    match write with
    | .ok () => (.ok (), w)
    | .error e => (.error (.rusbError e), w)

/-- The second half, from the decision on. -/
def syncZlp (w : RusbAsyncWriter) (write : Except String Unit) :
    Except RusbmuxError Unit × RusbAsyncWriter :=
  if 0 < w.currentTransferLen ∧ isMultipleOf w.currentTransferLen.toNat w.maxPacketSize then
    let w := { w with transfers := w.transfers ++ [[]] }
    match write with
    | .ok () => (.ok (), { w with currentTransferLen := 0 })
    | .error e => (.error (.rusbError e), w)
  else (.ok (), { w with currentTransferLen := 0 })

/-- `flush` and `zlp` are the answers of the two calls of `write_bulk`. -/
def syncFlushAndZlp (w : RusbAsyncWriter) (flush zlp : Except String Unit) :
    Except RusbmuxError Unit × RusbAsyncWriter :=
  match w.syncFlush flush with
  | (.error e, w) => (.error e, w)
  | (.ok (), w) => w.syncZlp zlp

def submitEnd (w : RusbAsyncWriter) (flush zlp : Except String Unit) :
    Except RusbmuxError Unit × RusbAsyncWriter :=
  w.syncFlushAndZlp flush zlp

/-- `submit` is the answer of `alloc_and_submit`, if it is called. -/
def pollWrite (w : RusbAsyncWriter) (submit : Except String Unit) (buf : Bytes) :
    Option (Poll (Except String ℕ) × RusbAsyncWriter) :=
  match w.pending with
  | some rx => match rx.poll with
    | some (.ready (some result), rx) =>
      if result.status ≠ 0 then
        some (.ready (.error "transfer failed"), { w with pending := some rx })
      else some (.pending, { w with pending := some rx })
    | some (.ready none, _) =>
      some (.ready (.error "write transfer cancelled"), { w with pending := none })
    | some (.pending, rx) => some (.pending, { w with pending := some rx })
    | none => none
  | none =>
    if buf = [] then some (.ready (.ok 0), w)
    else
      let w := { w with buffer := w.buffer ++ buf }
      -- auto flush above threshold
      if MAX_PACKET_SIZE*2 ≤ w.buffer.length then
        match submit with
        | .ok () => some (.pending, { w with
            buffer := []
            transfers := w.transfers ++ [w.buffer]
            currentTransferLen := w.currentTransferLen + UInt64.ofNat buf.length
            pending := some .waiting })
        | .error e => some (.ready (.error e), { w with buffer := [] })
      else some (.ready (.ok buf.length), w)

/-- The in-flight transfer, driven by `poll_flush`. -/
def drive (w : RusbAsyncWriter) (rx : OneshotReceiver BulkResult) :
    Option (Poll (Except String Unit) × RusbAsyncWriter) :=
  match rx.poll with
  | some (.ready (some result), _) =>
    if result.status ≠ 0 then
      some (.ready (.error ("libusb write: " ++ libusbStatusStr result.status)),
        { w with pending := none })
    else some (.ready (.ok ()), { w with pending := none })
  | some (.ready none, _) =>
    some (.ready (.error "write transfer cancelled"), { w with pending := none })
  | some (.pending, rx) => some (.pending, { w with pending := some rx })
  | none => none

/-- `early` is what the transfer has sent by the poll after its submission. -/
def pollFlush (w : RusbAsyncWriter) (submit : Except String Unit)
    (early : Option (Option BulkResult)) :
    Option (Poll (Except String Unit) × RusbAsyncWriter) :=
  match w.pending with
  | some rx => w.drive rx
  | none =>
    if w.buffer = [] then some (.ready (.ok ()), w)
    else match submit with
      | .error e => some (.ready (.error e), { w with buffer := [] })
      | .ok () =>
        let w : RusbAsyncWriter := { w with
          buffer := []
          transfers := w.transfers ++ [w.buffer]
          currentTransferLen := w.currentTransferLen + UInt64.ofNat w.buffer.length }
        w.drive (early.elim .waiting .completed)

def pollShutdown (w : RusbAsyncWriter) (submit : Except String Unit)
    (early : Option (Option BulkResult)) :
    Option (Poll (Except String Unit) × RusbAsyncWriter) :=
  w.pollFlush submit early

/-- The callback of the transfer in flight sends its result, or drops the sender. -/
def complete (w : RusbAsyncWriter) (value : Option BulkResult) : Option RusbAsyncWriter :=
  match w.pending with
  | some .waiting => some { w with pending := some (.completed value) }
  | _ => none

/-- A `poll_write` of `buf` comes to the threshold. -/
def Crosses (w : RusbAsyncWriter) (buf : Bytes) : Prop :=
  w.pending = none ∧ buf ≠ [] ∧ MAX_PACKET_SIZE*2 ≤ w.buffer.length+buf.length

instance (w : RusbAsyncWriter) (buf : Bytes) : Decidable (w.Crosses buf) :=
  inferInstanceAs (Decidable (_ ∧ _ ∧ _))

variable {w w' : RusbAsyncWriter} {buf : Bytes} {submit : Except String Unit}

/-- A write that comes to the threshold hands over the whole buffer, and counts
its own bytes. -/
theorem pollWrite_of_crosses (h : w.Crosses buf) :
    w.pollWrite (.ok ()) buf = some (.pending, { w with
      buffer := []
      transfers := w.transfers ++ [w.buffer ++ buf]
      currentTransferLen := w.currentTransferLen + UInt64.ofNat buf.length
      pending := some .waiting }) := by
  have hl : MAX_PACKET_SIZE*2 ≤ (w.buffer ++ buf).length := by
    rw [List.length_append]
    exact h.2.2
  simp only [pollWrite, h.1, h.2.1, if_false, if_pos hl]

/-- Below the threshold the bytes go to the buffer. -/
theorem pollWrite_of_below (hp : w.pending = none) (hb : buf ≠ [])
    (hl : w.buffer.length+buf.length < MAX_PACKET_SIZE*2) :
    w.pollWrite submit buf =
      some (.ready (.ok buf.length), { w with buffer := w.buffer ++ buf }) := by
  have hl' : ¬ MAX_PACKET_SIZE*2 ≤ (w.buffer ++ buf).length := by
    rw [List.length_append]
    exact Nat.not_le.mpr hl
  simp only [pollWrite, hp, if_neg hb, if_neg hl']

/-- A write that does not come to the threshold hands over nothing. -/
theorem pollWrite_hands_nothing {r : Poll (Except String ℕ)}
    (h : ¬ (w.Crosses buf ∧ submit = .ok ()))
    (hr : w.pollWrite submit buf = some (r, w')) :
    w'.transfers = w.transfers ∧ w'.currentTransferLen = w.currentTransferLen := by
  unfold pollWrite at hr
  split at hr
  case h_1 rx hp =>
    split at hr
    · split_ifs at hr <;> (cases hr; exact ⟨rfl, rfl⟩)
    · cases hr
      exact ⟨rfl, rfl⟩
    · cases hr
      exact ⟨rfl, rfl⟩
    · cases hr
  case h_2 hp =>
    by_cases hb : buf = []
    · rw [if_pos hb] at hr
      cases hr
      exact ⟨rfl, rfl⟩
    · rw [if_neg hb] at hr
      by_cases hl : MAX_PACKET_SIZE*2 ≤ (w.buffer ++ buf).length
      · simp only [if_pos hl] at hr
        cases submit with
        | ok u =>
          rw [List.length_append] at hl
          exact absurd ⟨⟨hp, hb, hl⟩, rfl⟩ h
        | error e =>
          cases hr
          exact ⟨rfl, rfl⟩
      · simp only [if_neg hl] at hr
        cases hr
        exact ⟨rfl, rfl⟩

theorem drive_frame {rx : OneshotReceiver BulkResult} {r : Poll (Except String Unit)}
    (hr : w.drive rx = some (r, w')) : ∃ pending, w' = { w with pending := pending } := by
  unfold drive at hr
  split at hr
  · split_ifs at hr <;> (cases hr; exact ⟨_, rfl⟩)
  · cases hr
    exact ⟨_, rfl⟩
  · cases hr
    exact ⟨_, rfl⟩
  · cases hr

/-- What `poll_flush` hands over is what it counts. -/
theorem pollFlush_counts {early : Option (Option BulkResult)} {r : Poll (Except String Unit)}
    (hr : w.pollFlush submit early = some (r, w')) :
    ∃ data, w'.handed = w.handed+data ∧
      w'.currentTransferLen = w.currentTransferLen + UInt64.ofNat data := by
  unfold pollFlush at hr
  split at hr
  case h_1 rx' hp =>
    obtain ⟨pending, rfl⟩ := drive_frame hr
    exact ⟨0, rfl, (UInt64.add_zero _).symm⟩
  case h_2 hp =>
    split_ifs at hr with hb
    · cases hr
      exact ⟨0, rfl, (UInt64.add_zero _).symm⟩
    · cases submit with
      | error e =>
        cases hr
        exact ⟨0, rfl, (UInt64.add_zero _).symm⟩
      | ok u =>
        obtain ⟨pending, rfl⟩ := drive_frame hr
        refine ⟨w.buffer.length, ?_, rfl⟩
        simp only [handed, List.flatten_append, List.flatten_singleton, List.length_append]

end RusbAsyncWriter
end Rusbmux
