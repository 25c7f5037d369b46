import Rusbmux.SeqTiling
import Rusbmux.StepSystem
import Rusbmux.KeyTable
import Rusbmux.Relay
import Rusbmux.MuxEncode

/-! `send_bytes` and `send_plist` of src/conn/usb.rs, called by any number of
tasks that share one connection. A call reads the counter of the sent bytes,
puts its packet on the channel of the writer loop and then adds to the counter,
each in a step of its own. -/
namespace Rusbmux

/-- What a call is given to send. -/
inductive SendValue where
  | bytes (value : Bytes)
  | plist (value : PlistValue)

/-- Where a call is. -/
inductive SendCall where
  /-- In `tx.send` of `send_packet`. `counted` is no part of the program: the
  payload bytes that were in the counter when the call read it. -/
  | sending (packet : UsbDevicePacket) (counted : ℕ)
  /-- The packet is on the channel, `add_sent_bytes` is next. -/
  | sent (payloadLen : ℕ)
  /-- `update_sendable_bytes` is next. -/
  | added
  deriving DecidableEq

/-- A connection that several tasks send on. `placed` and `counted` are no part
of the program: the data packets of the connection in the order they were put
on the channel, and the payload bytes added to the counter. -/
structure ConcurrentSends where
  conn : UsbDeviceConn
  wTx : List UsbDevicePacket
  calls : KeyTable ℕ SendCall
  placed : List UsbDevicePacket
  counted : ℕ

namespace ConcurrentSends

inductive Action where
  /-- A call begins, under a number that no other call has: the packet is built. -/
  | call (n : ℕ) (value : SendValue)
  /-- The channel takes the packet of the call. -/
  | place (n : ℕ)
  /-- The channel is closed, or the task is dropped at its await. -/
  | fails (n : ℕ)
  | addSentBytes (n : ℕ)
  | updateSendableBytes (n : ℕ)
  /-- `recv` takes a packet of the device. -/
  | recvTake (response : UsbDevicePacket)
  /-- An ACK, an RST or a packet of another connection. -/
  | otherSends (packet : UsbDevicePacket)
  | writerTakes

def sequenceNumber (p : UsbDevicePacket) : UInt32 :=
  (p.tcpHdr.map TcpHeader.sequenceNumber).getD 0

def payloadLen (p : UsbDevicePacket) : ℕ := p.payload.len

/-- The data packets of the connection tile its stream. -/
def Tiles (placed : List UsbDevicePacket) : Prop :=
  SeqTiling.Tiles sequenceNumber payloadLen placed

def total (placed : List UsbDevicePacket) : ℕ := SeqTiling.total payloadLen placed

section

-- `Value::to_writer_xml`
variable (toWriterXml : PlistValue → Bytes)

/-- The packet that a call builds from the counters it reads. -/
def packetOf (conn : UsbDeviceConn) : SendValue → UsbDevicePacket
  | .bytes value => conn.bytesPacket value
  | .plist value => conn.bytesPacket (plistPayload (toWriterXml value))

def hasRoom (s : ConcurrentSends) : Bool := s.wTx.length < QUEUE_SIZE

def setCall (s : ConcurrentSends) (n : ℕ) (call : SendCall) : ConcurrentSends :=
  { s with calls := s.calls.insert n call }

def step (s : ConcurrentSends) : Action → Option ConcurrentSends
  | .call n value => match s.calls.get n with
    | none => some (s.setCall n (.sending (packetOf toWriterXml s.conn value) s.counted))
    | some _ => none
  | .place n => match s.calls.get n with
    | some (.sending packet _) =>
      if s.hasRoom then
        some { s.setCall n (.sent (payloadLen packet)) with
          wTx := s.wTx ++ [packet]
          placed := s.placed ++ [packet] }
      else none
    | _ => none
  | .fails n => match s.calls.get n with
    | some (.sending _ _) => some { s with calls := s.calls.remove n }
    | _ => none
  -- the atomic add on the counter that other calls read meanwhile
  | .addSentBytes n => match s.calls.get n with
    | some (.sent payloadLen) =>
      some { s.setCall n .added with
        conn := { s.conn with sentBytes := s.conn.sentBytes+UInt32.ofNat payloadLen }
        counted := s.counted+payloadLen }
    | _ => none
  | .updateSendableBytes n => match s.calls.get n with
    | some .added =>
      some { s with conn := s.conn.updateSendableBytes, calls := s.calls.remove n }
    | _ => none
  | .recvTake response => some { s with conn := s.conn.recvTake response }
  | .otherSends packet =>
    if s.hasRoom then some { s with wTx := s.wTx ++ [packet] } else none
  | .writerTakes => match s.wTx with
    | [] => none
    | _ :: rest => some { s with wTx := rest }

/-- A connection that nothing was sent on so far. -/
def start (conn : UsbDeviceConn) : ConcurrentSends := ⟨conn, [], .empty, [], 0⟩

/-- A call puts its packet on the channel when the data packets there before it
have as many payload bytes as were in the counter when the call read it. -/
def ReadsAll (s : ConcurrentSends) : Action → Prop
  | .place n => ∀ packet counted, s.calls.get n = some (.sending packet counted) →
    total s.placed % 2^32 = counted % 2^32
  | _ => True

/-- The calls take turns: one reads the counter only while the bytes of every packet
on the channel are in it, and a packet with a payload is put on the channel only while
no other call has read the counter and not put its packet there. -/
def TakesTurns (s : ConcurrentSends) : Action → Prop
  | .call _ _ => ∀ m len, s.calls.get m = some (.sent len) → len = 0
  | .place n => ∀ packet counted, s.calls.get n = some (.sending packet counted) →
    payloadLen packet = 0 ∨
      ∀ m other c, m ≠ n → s.calls.get m ≠ some (.sending other c)
  | _ => True

/-- What turns keep: what has been read is all that is on the channel, unless one
packet's bytes are still to be counted, and then nothing has been read. -/
structure Turns (s : ConcurrentSends) : Prop where
  settled : (∀ m len, s.calls.get m = some (.sent len) → len = 0) →
    s.counted = total s.placed ∧
      ∀ n packet counted, s.calls.get n = some (.sending packet counted) →
        counted = total s.placed
  owed : ∀ m len, s.calls.get m = some (.sent len) → len ≠ 0 →
    s.counted+len = total s.placed ∧
      (∀ n packet counted, s.calls.get n ≠ some (.sending packet counted)) ∧
      ∀ n other, n ≠ m → s.calls.get n = some (.sent other) → other = 0

/-- Every number agrees with the bytes it stands for: `base` is where the
stream began. -/
structure Inv (base : UInt32) (s : ConcurrentSends) : Prop where
  counter : s.conn.sentBytes = base+UInt32.ofNat s.counted
  sending : ∀ n packet counted, s.calls.get n = some (.sending packet counted) →
    sequenceNumber packet = base+UInt32.ofNat counted
  last : ∀ p, s.placed.getLast? = some p →
    sequenceNumber p+UInt32.ofNat (payloadLen p) = base+UInt32.ofNat (total s.placed)
  /-- Before the first packet nothing is counted. -/
  fresh : s.placed = [] → s.counted = 0 ∧
    ∀ n call, s.calls.get n = some call → ∃ packet, call = .sending packet 0
  tiles : Tiles s.placed

variable {toWriterXml} {base : UInt32} {s t : ConcurrentSends}

theorem sequenceNumber_packetOf (conn : UsbDeviceConn) (value : SendValue) :
    sequenceNumber (packetOf toWriterXml conn value) = conn.sentBytes := by
  cases value <;> rfl

theorem sentBytes_recvTake (conn : UsbDeviceConn) (response : UsbDevicePacket) :
    (conn.recvTake response).sentBytes = conn.sentBytes := by
  unfold UsbDeviceConn.recvTake
  split <;> rfl

theorem inv_start (conn : UsbDeviceConn) : (start conn).Inv conn.sentBytes where
  counter := (UInt32.add_zero conn.sentBytes).symm
  sending n packet counted h := by cases h
  last p h := by cases h
  fresh _ := ⟨rfl, fun n call h => by cases h⟩
  tiles := SeqTiling.Consecutive.tiles List.isChain_nil

/-- A step that places nothing and counts nothing. -/
theorem Inv.frame (h : s.Inv base) (hconn : t.conn.sentBytes = s.conn.sentBytes)
    (hplaced : t.placed = s.placed) (hcounted : t.counted = s.counted)
    (hcalls : ∀ n call, t.calls.get n = some call → s.calls.get n = some call) : t.Inv base where
  counter := by rw [hconn, hcounted, h.counter]
  sending n packet counted hn := h.sending n packet counted (hcalls n _ hn)
  last p hp := by
    rw [hplaced] at hp ⊢
    exact h.last p hp
  fresh hnil := by
    rw [hplaced] at hnil
    rw [hcounted]
    have hfresh := h.fresh hnil
    exact ⟨hfresh.1, fun n call hn => hfresh.2 n call (hcalls n call hn)⟩
  tiles := by
    rw [hplaced]
    exact h.tiles

/-- A call ends. -/
theorem Inv.endCall (h : s.Inv base) (n : ℕ) (conn : UsbDeviceConn)
    (hconn : conn.sentBytes = s.conn.sentBytes) :
    Inv base { s with conn := conn, calls := s.calls.remove n } := by
  refine h.frame hconn rfl rfl ?_
  intro k call hk
  rw [KeyTable.get_remove] at hk
  split_ifs at hk
  exact hk

/-- A call reads the counter. -/
theorem Inv.call (h : s.Inv base) (n : ℕ) (value : SendValue) :
    (s.setCall n (.sending (packetOf toWriterXml s.conn value) s.counted)).Inv base where
  counter := h.counter
  sending k packet counted hk := by
    rw [setCall, KeyTable.get_insert] at hk
    split_ifs at hk with hkn
    · cases hk
      rw [sequenceNumber_packetOf, h.counter]
    · exact h.sending k packet counted hk
  last := h.last
  fresh hnil := by
    have hfresh := h.fresh hnil
    refine ⟨hfresh.1, ?_⟩
    intro k call hk
    rw [setCall, KeyTable.get_insert] at hk
    split_ifs at hk with hkn
    · cases hk
      exact ⟨_, congrArg _ hfresh.1⟩
    · exact hfresh.2 k call hk
  tiles := h.tiles

theorem Inv.addSentBytes (h : s.Inv base) {n len : ℕ} (hn : s.calls.get n = some (.sent len)) :
    Inv base { s.setCall n .added with
      conn := { s.conn with sentBytes := s.conn.sentBytes+UInt32.ofNat len }
      counted := s.counted+len } where
  counter := by
    change s.conn.sentBytes+UInt32.ofNat len = base+UInt32.ofNat (s.counted+len)
    rw [h.counter, UInt32.ofNat_add, UInt32.add_assoc]
  sending k packet counted hk := by
    rw [setCall, KeyTable.get_insert] at hk
    split_ifs at hk with hkn
    · cases hk
    · exact h.sending k packet counted hk
  last := h.last
  fresh hnil := by
    -- a call that has placed its packet is not the first to come
    have hcall := (h.fresh hnil).2 n _ hn
    obtain ⟨packet, hpacket⟩ := hcall
    cases hpacket
  tiles := h.tiles

theorem total_append_singleton (ps : List UsbDevicePacket) (p : UsbDevicePacket) :
    total (ps ++ [p]) = total ps+payloadLen p := by
  unfold total
  rw [SeqTiling.total_append, SeqTiling.total_singleton]

/-- The state after a call has placed its packet. -/
def placedBy (s : ConcurrentSends) (n : ℕ) (packet : UsbDevicePacket) : ConcurrentSends :=
  { s.setCall n (.sent (payloadLen packet)) with
    wTx := s.wTx ++ [packet]
    placed := s.placed ++ [packet] }

/-- The packet that is placed starts where the bytes placed before it end, if
and only if its call had read them all. -/
theorem Inv.starts_iff (h : s.Inv base) {n counted : ℕ} {packet : UsbDevicePacket}
    (hn : s.calls.get n = some (.sending packet counted)) :
    sequenceNumber packet = base+UInt32.ofNat (total s.placed) ↔
      total s.placed % 2^32 = counted % 2^32 := by
  rw [h.sending n packet counted hn, UInt32.add_right_inj]
  constructor
  · intro hnum
    have hnat := congrArg UInt32.toNat hnum
    rw [UInt32.toNat_ofNat', UInt32.toNat_ofNat'] at hnat
    exact hnat.symm
  · intro hmod
    apply UInt32.toNat_inj.mp
    rw [UInt32.toNat_ofNat', UInt32.toNat_ofNat', hmod]

theorem Inv.place (h : s.Inv base) {n counted : ℕ} {packet : UsbDevicePacket}
    (hn : s.calls.get n = some (.sending packet counted))
    (hreads : total s.placed % 2^32 = counted % 2^32) : (s.placedBy n packet).Inv base := by
  have hstarts := (h.starts_iff hn).mpr hreads
  constructor
  case counter => exact h.counter
  case sending =>
    intro k p c hk
    rw [placedBy, setCall, KeyTable.get_insert] at hk
    split_ifs at hk with hkn
    · cases hk
    · exact h.sending k p c hk
  case last =>
    intro p hp
    change (s.placed ++ [packet]).getLast? = some p at hp
    rw [List.getLast?_concat] at hp
    cases hp
    change _ = base+UInt32.ofNat (total (s.placed ++ [packet]))
    rw [hstarts, total_append_singleton, UInt32.ofNat_add, UInt32.add_assoc]
  case fresh =>
    intro hnil
    exact absurd hnil (List.append_ne_nil_of_right_ne_nil _ (List.cons_ne_nil _ _))
  case tiles =>
    apply SeqTiling.Consecutive.tiles
    apply SeqTiling.consecutive_append_singleton.mpr
    refine ⟨h.tiles.consecutive, ?_⟩
    intro p hp
    exact hstarts.trans (h.last p hp).symm

/-- Packets that tile the stream show what the last of them had read. -/
theorem Inv.reads_of_tiles (h : s.Inv base) {n counted : ℕ} {packet : UsbDevicePacket}
    (hn : s.calls.get n = some (.sending packet counted))
    (ht : Tiles (s.placed ++ [packet])) : total s.placed % 2^32 = counted % 2^32 := by
  cases hlast : s.placed.getLast? with
  | none =>
    have hnil := List.getLast?_eq_none_iff.mp hlast
    obtain ⟨p, hp⟩ := (h.fresh hnil).2 n _ hn
    cases hp
    rw [hnil]
    rfl
  | some p =>
    apply (h.starts_iff hn).mp
    have hp := (SeqTiling.consecutive_append_singleton.mp ht.consecutive).2 p hlast
    exact hp.trans (h.last p hlast)

/-- A step from a state in which the numbers agree reaches such a state exactly
if the packet it places, if any, was built from the whole count. -/
theorem inv_step {a : Action} (h : s.Inv base) (hst : s.step toWriterXml a = some t) :
    (s.ReadsAll a → t.Inv base) ∧ (Tiles t.placed → s.ReadsAll a) := by
  cases a with
  | call n value =>
    refine ⟨fun _ => ?_, fun _ => trivial⟩
    simp only [step] at hst
    split at hst <;> cases hst
    exact h.call n value
  | place n =>
    simp only [step] at hst
    split at hst
    · rename_i packet counted hn
      split_ifs at hst
      cases hst
      -- the one step that can break the rule, and its packet shows it
      constructor
      · intro hreads
        exact h.place hn (hreads packet counted hn)
      · intro ht q c hq
        cases hn.symm.trans hq
        exact h.reads_of_tiles hn ht
    · cases hst
  | fails n =>
    refine ⟨fun _ => ?_, fun _ => trivial⟩
    simp only [step] at hst
    split at hst <;> cases hst
    exact h.endCall n s.conn rfl
  | addSentBytes n =>
    refine ⟨fun _ => ?_, fun _ => trivial⟩
    simp only [step] at hst
    split at hst
    · rename_i hn
      cases hst
      exact h.addSentBytes hn
    · cases hst
  | updateSendableBytes n =>
    refine ⟨fun _ => ?_, fun _ => trivial⟩
    simp only [step] at hst
    split at hst <;> cases hst
    exact h.endCall n s.conn.updateSendableBytes rfl
  | recvTake response =>
    refine ⟨fun _ => ?_, fun _ => trivial⟩
    cases hst
    exact h.frame (sentBytes_recvTake s.conn response) rfl rfl fun _ _ hk => hk
  | otherSends packet =>
    refine ⟨fun _ => ?_, fun _ => trivial⟩
    simp only [step] at hst
    split_ifs at hst
    cases hst
    exact h.frame rfl rfl rfl fun _ _ hk => hk
  | writerTakes =>
    refine ⟨fun _ => ?_, fun _ => trivial⟩
    simp only [step] at hst
    split at hst <;> cases hst
    exact h.frame rfl rfl rfl fun _ _ hk => hk

/-- Over every interleaving of calls on one connection, its data packets tile
the stream exactly as long as each is put on the channel by a call that read the
bytes of all the packets before it from the counter. -/
theorem tiles_iff_readsAll (toWriterXml : PlistValue → Bytes) (conn : UsbDeviceConn)
    (as : List Action) :
    StepSystem.EveryState (step toWriterXml) (fun s => Tiles s.placed) (start conn) as ↔
      StepSystem.EveryStep (step toWriterXml) ReadsAll (start conn) as :=
  StepSystem.everyState_iff_everyStep (fun _ _ _ h hst => inv_step h hst)
    (fun _ h => h.tiles) (inv_start conn) as

/-- A step that places nothing and counts nothing, and begins no call. -/
theorem Turns.frame (h : s.Turns) (hplaced : t.placed = s.placed) (hcounted : t.counted = s.counted)
    (hsending : ∀ n packet counted, t.calls.get n = some (.sending packet counted) →
      s.calls.get n = some (.sending packet counted))
    (hsent : ∀ n len, len ≠ 0 →
      (t.calls.get n = some (.sent len) ↔ s.calls.get n = some (.sent len))) : t.Turns where
  settled hnone := by
    have hsettled : ∀ m len, s.calls.get m = some (.sent len) → len = 0 := by
      intro m len hm
      by_contra hlen
      exact hlen (hnone m len ((hsent m len hlen).mpr hm))
    obtain ⟨hall, hread⟩ := h.settled hsettled
    rw [hplaced, hcounted]
    exact ⟨hall, fun n packet counted hn => hread n packet counted (hsending n packet counted hn)⟩
  owed m len hm hlen := by
    obtain ⟨hall, hread, hone⟩ := h.owed m len ((hsent m len hlen).mp hm) hlen
    rw [hplaced, hcounted]
    refine ⟨hall, fun n packet counted hn => hread n packet counted (hsending n packet counted hn),
      fun n other hnm hn => ?_⟩
    by_contra hother
    exact hother (hone n other hnm ((hsent n other hother).mp hn))

/-- A call ends whose bytes are not waited for. -/
theorem Turns.endCall (h : s.Turns) {n : ℕ} {call : SendCall} (hn : s.calls.get n = some call)
    (hcall : ∀ len, call ≠ .sent len) (conn : UsbDeviceConn) :
    Turns { s with conn := conn, calls := s.calls.remove n } := by
  refine h.frame rfl rfl ?_ ?_
  · intro m packet counted hm
    rw [KeyTable.get_remove] at hm
    split_ifs at hm
    exact hm
  · intro m len _
    change (s.calls.remove n).get m = _ ↔ _
    by_cases hmn : m = n
    · subst hmn
      rw [KeyTable.get_remove_self, hn]
      exact iff_of_false (fun hc => by cases hc) fun hc => hcall len (Option.some.inj hc)
    · rw [KeyTable.get_remove_of_ne _ hmn]

/-- A call reads the counter while nothing waits to be counted. -/
theorem Turns.call (h : s.Turns) {n : ℕ} {packet : UsbDevicePacket}
    (hfree : s.calls.get n = none)
    (hturn : ∀ m len, s.calls.get m = some (.sent len) → len = 0) :
    (s.setCall n (.sending packet s.counted)).Turns := by
  obtain ⟨hall, hread⟩ := h.settled hturn
  have hsent (m len : ℕ) : (s.setCall n (.sending packet s.counted)).calls.get m =
      some (.sent len) ↔ s.calls.get m = some (.sent len) := by
    rw [setCall, KeyTable.get_insert]
    split_ifs with hmn
    · rw [hmn, hfree]
      exact iff_of_false (fun hc => by cases hc) fun hc => by cases hc
    · rfl
  constructor
  case settled =>
    refine fun _ => ⟨hall, ?_⟩
    intro m p c hm
    rw [setCall, KeyTable.get_insert] at hm
    split_ifs at hm
    · cases hm
      exact hall
    · exact hread m p c hm
  case owed =>
    intro m len hm hlen
    exact absurd (hturn m len ((hsent m len).mp hm)) hlen

/-- A call puts its packet on the channel, alone if the packet has a payload. -/
theorem Turns.place (h : s.Turns) {n counted : ℕ} {packet : UsbDevicePacket}
    (hn : s.calls.get n = some (.sending packet counted))
    (hturn : payloadLen packet = 0 ∨
      ∀ m other c, m ≠ n → s.calls.get m ≠ some (.sending other c)) :
    counted = total s.placed ∧ (s.placedBy n packet).Turns := by
  -- a call that has read the counter waits for nobody's bytes
  have hnone (m len : ℕ) (hm : s.calls.get m = some (.sent len)) : len = 0 := by
    by_contra hlen
    exact (h.owed m len hm hlen).2.1 n packet counted hn
  obtain ⟨hall, hread⟩ := h.settled hnone
  have hget (m : ℕ) : (s.placedBy n packet).calls.get m =
      if m = n then some (.sent (payloadLen packet)) else s.calls.get m :=
    KeyTable.get_insert s.calls n m _
  have htotal : total (s.placedBy n packet).placed = total s.placed+payloadLen packet :=
    total_append_singleton s.placed packet
  refine ⟨hread n packet counted hn, ?_⟩
  constructor
  case settled =>
    intro hzero
    have hempty : payloadLen packet = 0 := hzero n _ (by rw [hget, if_pos rfl])
    rw [htotal, hempty, Nat.add_zero]
    refine ⟨hall, ?_⟩
    intro m p c hm
    rw [hget] at hm
    split_ifs at hm
    · cases hm
    · exact hread m p c hm
  case owed =>
    intro m len hm hlen
    rw [hget] at hm
    split_ifs at hm with hmn
    · cases hm
      refine ⟨by rw [htotal, ← hall]; rfl, ?_, ?_⟩
      · intro k p c hk
        rw [hget] at hk
        split_ifs at hk with hkn
        · cases hk
        · exact (hturn.resolve_left hlen) k p c hkn hk
      · intro k other hkm hk
        rw [hget, if_neg fun hkn => hkm (hkn.trans hmn.symm)] at hk
        exact hnone k other hk
    · exact absurd (hnone m len hm) hlen

/-- The bytes of a packet on the channel get into the counter. -/
theorem Turns.addSentBytes (h : s.Turns) {n len : ℕ} (hn : s.calls.get n = some (.sent len)) :
    Turns { s.setCall n .added with
      conn := { s.conn with sentBytes := s.conn.sentBytes+UInt32.ofNat len }
      counted := s.counted+len } := by
  have hget (m : ℕ) : (s.calls.insert n .added).get m =
      if m = n then some .added else s.calls.get m := KeyTable.get_insert s.calls n m _
  have hsending : ∀ m p c, (s.calls.insert n .added).get m = some (.sending p c) →
      s.calls.get m = some (.sending p c) := by
    intro m p c hm
    rw [hget] at hm
    split_ifs at hm
    · cases hm
    · exact hm
  by_cases hlen : len = 0
  · subst hlen
    refine h.frame rfl rfl hsending fun m other hother => ?_
    change (s.calls.insert n .added).get m = _ ↔ _
    rw [hget]
    split_ifs with hmn
    · rw [hmn, hn]
      refine iff_of_false (fun hc => by cases hc) fun hc => ?_
      cases hc
      exact hother rfl
    · rfl
  · obtain ⟨hall, hread, hone⟩ := h.owed n len hn hlen
    constructor
    case settled =>
      exact fun _ => ⟨hall, fun m p c hm => absurd (hsending m p c hm) (hread m p c)⟩
    case owed =>
      intro m other hm hother
      change (s.calls.insert n .added).get m = _ at hm
      rw [hget] at hm
      split_ifs at hm with hmn
      · cases hm
      · exact absurd (hone m other hmn hm) hother

theorem turns_start (conn : UsbDeviceConn) : (start conn).Turns where
  settled _ := ⟨rfl, fun n packet counted hn => by cases hn⟩
  owed m len hm := by cases hm

/-- While the calls take turns, each has read what the channel has. -/
theorem turns_step {a : Action} (h : s.Turns) (ha : s.TakesTurns a)
    (hst : s.step toWriterXml a = some t) : s.ReadsAll a ∧ t.Turns := by
  cases a with
  | call n value =>
    simp only [step] at hst
    split at hst
    · rename_i hn
      cases hst
      exact ⟨trivial, h.call hn ha⟩
    · cases hst
  | place n =>
    simp only [step] at hst
    split at hst
    · rename_i packet counted hn
      split_ifs at hst
      cases hst
      -- no call has bytes still to be added, so the counter read is the whole count
      obtain ⟨hread, hturns⟩ := h.place hn (ha packet counted hn)
      refine ⟨?_, hturns⟩
      intro p c hp
      cases hn.symm.trans hp
      rw [hread]
    · cases hst
  | fails n =>
    simp only [step] at hst
    split at hst
    · rename_i packet counted hn
      cases hst
      exact ⟨trivial, h.endCall hn (fun len hc => by cases hc) s.conn⟩
    · cases hst
  | addSentBytes n =>
    simp only [step] at hst
    split at hst
    · rename_i len hn
      cases hst
      exact ⟨trivial, h.addSentBytes hn⟩
    · cases hst
  | updateSendableBytes n =>
    simp only [step] at hst
    split at hst
    · rename_i hn
      cases hst
      exact ⟨trivial, h.endCall hn (fun len hc => by cases hc) s.conn.updateSendableBytes⟩
    · cases hst
  | recvTake response =>
    cases hst
    exact ⟨trivial, h.frame rfl rfl (fun _ _ _ hn => hn) fun _ _ _ => Iff.rfl⟩
  | otherSends packet =>
    simp only [step] at hst
    split_ifs at hst
    cases hst
    exact ⟨trivial, h.frame rfl rfl (fun _ _ _ hn => hn) fun _ _ _ => Iff.rfl⟩
  | writerTakes =>
    simp only [step] at hst
    split at hst <;> cases hst
    exact ⟨trivial, h.frame rfl rfl (fun _ _ _ hn => hn) fun _ _ _ => Iff.rfl⟩

/-- In every interleaving of calls on one connection in which they take turns, its
data packets tile the stream. -/
theorem tiles_of_takesTurns (toWriterXml : PlistValue → Bytes) (conn : UsbDeviceConn)
    (as : List Action)
    (h : StepSystem.EveryStep (step toWriterXml) TakesTurns (start conn) as) :
    StepSystem.EveryState (step toWriterXml) (fun s => Tiles s.placed) (start conn) as := by
  apply (tiles_iff_readsAll toWriterXml conn as).mpr
  exact StepSystem.everyStep_of_everyStep (fun _ _ _ hs ha hst => turns_step hs ha hst)
    (turns_start conn) h

/-- A connection whose handshake is done. -/
def openedConn : UsbDeviceConn := .newFrom 62078 1 1 1 512 1

/-- Two calls, of which the second one begins when the first has counted its bytes. -/
theorem tiles_of_takesTurns_two : StepSystem.EveryState (step writeXml)
    (fun s => Tiles s.placed) (start openedConn)
      [.call 0 (.bytes [1]), .place 0, .writerTakes, .addSentBytes 0, .call 1 (.bytes [2, 3]),
        .updateSendableBytes 0, .place 1, .addSentBytes 1] := by
  apply tiles_of_takesTurns
  have hkey (calls : KeyTable ℕ SendCall) (m : ℕ) (call : SendCall) (hm : calls.get m = some call) :
      m ∈ calls.keys := (calls.mem_keys_iff m).mpr ⟨call, hm⟩
  refine .intro (fun m len hm => by cases hm) ?_
  refine .intro (fun _ _ _ => .inr fun m other c hne hm => ?_) ?_
  · exact hne (List.mem_singleton.mp (hkey _ m _ hm))
  refine .intro trivial (.intro trivial (.intro (fun m len hm => ?_) ?_))
  · obtain rfl : m = 0 := List.mem_singleton.mp (hkey _ m _ hm)
    cases hm
  refine .intro trivial (.intro (fun _ _ _ => .inr fun m other c hne hm => ?_)
    (.intro trivial trivial))
  exact hne (List.mem_singleton.mp (hkey _ m _ hm))

/-- Two calls read the counter before either adds to it, and both packets claim
the same byte. -/
theorem not_tiles_overlapping : ¬ ∀ (toWriterXml : PlistValue → Bytes) (conn : UsbDeviceConn)
    (as : List Action),
    StepSystem.EveryState (step toWriterXml) (fun s => Tiles s.placed) (start conn) as := by
  intro h
  have hlast := (h writeXml openedConn
    [.call 0 (.bytes [1]), .call 1 (.bytes [2]), .place 0, .place 1]).last rfl
  have hseq := (List.isChain_cons_cons.mp hlast.consecutive).1
  exact absurd hseq (by decide)

end

end ConcurrentSends

end Rusbmux
