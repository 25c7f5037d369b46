import Rusbmux.RusbWriter

/-! The reader of the bulk endpoint in src/usb_backend/rusb.rs. -/
namespace Rusbmux

/-- The result of a transfer, with the data that the reader takes. -/
structure BulkRead extends BulkResult where
  data : Bytes
  deriving DecidableEq, Repr

structure RusbAsyncReader where
  buffer : Bytes
  pos : ℕ
  pending : Option (OneshotReceiver BulkRead)
  deriving DecidableEq, Repr

namespace RusbAsyncReader

def new : RusbAsyncReader := ⟨[], 0, none⟩

/-- `chunk_to_buf` on a buffer with room for `remaining` bytes, and what it puts
there. -/
def chunkToBuf (r : RusbAsyncReader) (chunk : Bytes) (remaining : ℕ) : Bytes × RusbAsyncReader :=
  let toCopy := min chunk.length remaining
  if toCopy < chunk.length then (chunk.take toCopy, { r with buffer := chunk, pos := toCopy })
  else (chunk.take toCopy, { r with buffer := [], pos := 0 })

/-- The transfer in flight, driven at the start of a later poll. -/
def drive (r : RusbAsyncReader) (rx : OneshotReceiver BulkRead) (remaining : ℕ) :
    Option (Poll (Except String Bytes) × RusbAsyncReader) :=
  match rx.poll with
  | some (.ready (some result), _) =>
    if result.status ≠ 0 then
      some (.ready (.error ("libusb read: " ++ libusbStatusStr result.status)),
        { r with pending := none })
    else
      let (copied, r) := r.chunkToBuf result.data remaining
      some (.ready (.ok copied), { r with pending := none })
  | some (.ready none, _) =>
    some (.ready (.error "read transfer cancelled"), { r with pending := none })
  | some (.pending, rx) => some (.pending, { r with pending := some rx })
  | none => none

/-- The transfer just submitted, driven by the same poll. -/
def driveSubmitted (r : RusbAsyncReader) (rx : OneshotReceiver BulkRead) (remaining : ℕ) :
    Option (Poll (Except String Bytes) × RusbAsyncReader) :=
  match rx.poll with
  -- the status is not read here
  | some (.ready (some result), _) =>
    let (copied, r) := r.chunkToBuf result.data remaining
    some (.ready (.ok copied), { r with pending := none })
  | some (.ready none, _) =>
    some (.ready (.error "read transfer cancelled"), { r with pending := none })
  | some (.pending, rx) => some (.pending, { r with pending := some rx })
  | none => none

/-- `poll_read`, with the bytes that it puts into the caller's buffer. `submit`
is the answer of `alloc_and_submit`, if it is called, and `early` what the
transfer has sent by the poll after its submission. -/
def pollRead (r : RusbAsyncReader) (submit : Except String Unit)
    (early : Option (Option BulkRead)) (remaining : ℕ) :
    Option (Poll (Except String Bytes) × RusbAsyncReader) :=
  if r.pos < r.buffer.length then
    let available := r.buffer.length-r.pos
    let toCopy := min available remaining
    let copied := (r.buffer.drop r.pos).take toCopy
    let r := { r with pos := r.pos+toCopy }
    if r.pos = r.buffer.length then some (.ready (.ok copied), { r with buffer := [], pos := 0 })
    else some (.ready (.ok copied), r)
  else match r.pending with
    | some rx => r.drive rx remaining
    | none => match submit with
      | .ok () => r.driveSubmitted (early.elim .waiting .completed) remaining
      | .error e => some (.ready (.error e), r)

/-- The callback of the transfer in flight sends its result, or drops the sender. -/
def complete (r : RusbAsyncReader) (value : Option BulkRead) : Option RusbAsyncReader :=
  match r.pending with
  | some .waiting => some { r with pending := some (.completed value) }
  | _ => none

/-- The bytes of a transfer that was picked up which no caller has got yet. -/
def left (r : RusbAsyncReader) : Bytes := r.buffer.drop r.pos

/-- The transfer that has ended and was not picked up. -/
def arrived (r : RusbAsyncReader) : List BulkRead :=
  match r.pending with
  | some (.completed (some result)) => [result]
  | _ => []

/-- A poll comes to submit a transfer. -/
def Submits (r : RusbAsyncReader) : Prop := r.buffer.length ≤ r.pos ∧ r.pending = none

instance (r : RusbAsyncReader) : Decidable r.Submits := inferInstanceAs (Decidable (_ ∧ _))

end RusbAsyncReader
end Rusbmux
