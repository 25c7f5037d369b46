import Rusbmux.DownloadProgress
import Rusbmux.KeyTable

/-! The relays of a device behind its one reader loop, and how far one of them can
be held up by the others. -/
namespace Rusbmux

open Framing (ReadProgram)

/-- A relay, and whether the router has the queue of its connection. -/
structure RelayConn where
  relay : Relay
  registered : Bool

/-- The relays by the source ports of their connections, which put their packets on
one channel. -/
structure DeviceRelays where
  reader : TransferLoop
  conns : KeyTable UInt16 RelayConn
  wTx : List UsbDevicePacket
  /-- `route` waits for room on a queue, with the guard of its entry. -/
  inRoute : Bool

namespace DeviceRelays

open StepSystem (CanReach)

variable (codec : TcpCodec)

inductive Action where
  | poll (early : Bool)
  | complete
  /-- The reader loop goes on. A packet that it routes was sent when the device
  had received so many bytes of its connection. -/
  | advance (acked : ℕ)
  | relay (port : UInt16) (a : Relay.Action)

/-- The connection, with the channel as the others have left it. -/
def conn (s : DeviceRelays) (port : UInt16) : Option RelayConn :=
  (s.conns.get port).map fun c => { c with relay := { c.relay with wTx := s.wTx } }

def put (s : DeviceRelays) (port : UInt16) (c : RelayConn) : DeviceRelays :=
  { s with conns := s.conns.insert port c, wTx := c.relay.wTx }

/-- The loop waits in `route` for the queue of the port. -/
def waitsFor (s : DeviceRelays) (port : UInt16) : Bool :=
  s.inRoute && s.reader.routes.any fun packet => RouterLock.routePort packet == port

/-- `route` of a packet, behind which the loop has the state `reader`. -/
def route (s : DeviceRelays) (reader : TransferLoop) (packet : UsbDevicePacket) (acked : ℕ) :
    Option DeviceRelays :=
  match s.conn (RouterLock.routePort packet) with
  | none => some { s with reader := reader, inRoute := false }
  | some c =>
    if c.registered = false then some { s with reader := reader, inRoute := false }
    -- the receiver is gone or about to go, and `unregister` waits for the guard
    else if c.relay.phase = .ended then none
    else match c.relay.step (.deviceData ⟨packet, acked⟩) with
      | some relay => some { s.put (RouterLock.routePort packet) ⟨relay, c.registered⟩ with
          reader := reader
          inRoute := false }
      -- the loop waits, and no connection gets anything meanwhile
      | none => some { s with inRoute := true }

/-- A connection behind a step of its relay. It is dropped when the relay ends. -/
def settle (s : DeviceRelays) (port : UInt16) (c : RelayConn) (relay : Relay) : RelayConn :=
  if relay.phase = .ended ∧ c.relay.phase ≠ .ended then
    -- `close` has sent the reset, and `unregister` needs the guard of the entry
    if c.relay.conn.dropped then ⟨relay, c.registered && s.waitsFor port⟩
    else if relay.hasRoom then
      ⟨{ relay with wTx := relay.wTx ++ [relay.conn.rstPacket] },
        c.registered && s.waitsFor port⟩
    -- without room for the reset, the connection is dropped with its entry left
    else ⟨relay, c.registered⟩
  else ⟨relay, c.registered⟩

def step (s : DeviceRelays) : Action → Option DeviceRelays
  | .poll early => (s.reader.step codec (.poll early)).map fun reader => { s with reader := reader }
  | .complete => (s.reader.step codec .complete).map fun reader => { s with reader := reader }
  | .advance acked => (s.reader.step codec .advance).bind fun reader =>
    match s.reader.routes with
    | none => some { s with reader := reader, inRoute := false }
    | some packet => s.route reader packet acked
  -- only the loop puts packets on a queue
  | .relay _ (.deviceData _) => none
  | .relay port a => (s.conn port).bind fun c => (c.relay.step a).map fun relay =>
    s.put port (s.settle port c relay)

/-- The loop and one relay. -/
def wire (s : DeviceRelays) (relay : Relay) : DownloadWire := ⟨s.reader, relay⟩

/-- The client arm of the connection does not win while its `conn.recv()` holds
bytes for the client. -/
def KeepsHeld (port : UInt16) (s : DeviceRelays) : Action → Prop
  | .relay q a => q = port → ∀ c, s.conn port = some c → c.relay.KeepsHeld a
  | _ => True

/-- New relays behind a reader loop, each with what waits on its queue. -/
structure Starts (s : DeviceRelays) (before : UInt16 → List UsbDevicePacket) : Prop where
  each : ∀ port c, s.conn port = some c → c.registered = true ∧ ∃ conn rx sentTotal ackedTotal,
    c.relay = .start conn rx s.wTx sentTotal ackedTotal ∧ conn.sourcePort = port ∧
      s.reader.loop.routed.filter (DownloadWire.toPort port) =
        before port ++ rx.map Arrival.packet
  inRoute : s.inRoute = false

/-- The router has no connection that has ended, and the loop waits for no queue
whose relay is about to end. -/
structure Clear (s : DeviceRelays) : Prop where
  registered : ∀ port c, s.conn port = some c → c.registered = true → c.relay.phase ≠ .ended
  waits : ∀ port c, s.conn port = some c → s.waitsFor port = true → c.relay.Running

variable {codec : TcpCodec} {port : UInt16} {results : List BulkRead}
  {before : List UsbDevicePacket} {s t : DeviceRelays} {c : RelayConn}

/-- What holds of one connection along a run. -/
structure Sound (codec : TcpCodec) (port : UInt16) (results : List BulkRead)
    (before : List UsbDevicePacket) (s : DeviceRelays) (c : RelayConn) : Prop where
  wire : (s.wire c.relay).Sound codec port results before
  ended : c.registered = false → c.relay.phase = .ended

theorem conn_eq_some_iff : s.conn port = some c ↔
    ∃ d, s.conns.get port = some d ∧
      { d with relay := { d.relay with wTx := s.wTx } } = c :=
  Option.map_eq_some_iff

/-- Another connection sees nothing of a step but the channel. -/
def others (s : DeviceRelays) (wTx : List UsbDevicePacket) (port : UInt16) : Option RelayConn :=
  (s.conn port).map fun c => { c with relay := { c.relay with wTx := wTx } }

theorem conn_put (s : DeviceRelays) (port q : UInt16) (c : RelayConn) : (s.put q c).conn port =
    if port = q then some c else s.others c.relay.wTx port := by
  rw [conn, put, KeyTable.get_insert]
  split_ifs
  · rfl
  · rw [others, conn, Option.map_map]
    rfl

theorem settle_relay (q : UInt16) (c : RelayConn) (relay : Relay) :
    ∃ wTx, (s.settle q c relay).relay = { relay with wTx := wTx } := by
  unfold settle
  split_ifs
  · exact ⟨relay.wTx, rfl⟩
  · exact ⟨_, rfl⟩
  · exact ⟨relay.wTx, rfl⟩
  · exact ⟨relay.wTx, rfl⟩

/-- Only a connection that has ended is taken out of the router. -/
theorem settle_registered {q : UInt16} {relay : Relay}
    (h : (s.settle q c relay).registered = false) :
    relay.phase = .ended ∨ c.registered = false := by
  unfold settle at h
  split_ifs at h with hended
  · exact Or.inl hended.1
  · exact Or.inl hended.1
  · exact Or.inl hended.1
  · exact Or.inr h

theorem relay_step {q : UInt16} {action : Relay.Action}
    (hst : s.step codec (.relay q action) = some t) : (∀ a, action ≠ .deviceData a) ∧
      ∃ c relay, s.conn q = some c ∧ c.relay.step action = some relay ∧
        s.put q (s.settle q c relay) = t := by
  cases action with
  | deviceData a => cases hst
  | _ =>
    obtain ⟨c, hc, hst⟩ := Option.bind_eq_some_iff.mp hst
    obtain ⟨relay, hrelay, rfl⟩ := Option.map_eq_some_iff.mp hst
    exact ⟨(fun _ hc => by cases hc), c, relay, hc, hrelay, rfl⟩

theorem routing_wire {packet : UsbDevicePacket} (hroutes : s.reader.routes = some packet)
    (relay : Relay) : (s.wire relay).routing port =
      if RouterLock.routePort packet = port then some packet else none := by
  change s.reader.routes.filter (DownloadWire.toPort port) = _
  rw [hroutes, Option.filter_some, DownloadWire.toPort]
  by_cases hp : RouterLock.routePort packet = port <;> simp only [hp, beq_iff_eq, if_true, if_false]

/-- The loop goes on with nothing for the connection. -/
theorem Sound.advance {reader : TransferLoop} (h : s.Sound codec port results before c)
    (hreader : s.reader.step codec .advance = some reader)
    (hnone : (s.wire c.relay).routing port = none ∨ c.relay.phase = .ended)
    (inRoute : Bool) :
    Sound codec port results before { s with reader := reader, inRoute := inRoute } c := by
  have hstep : (s.wire c.relay).step codec port (.advance 0) =
      some ⟨reader, c.relay⟩ := by
    simp only [DownloadWire.step]
    cases hrouting : (s.wire c.relay).routing port with
    | none => simp only [DeviceRelays.wire, hreader, Option.bind_some]
    | some packet =>
      have hended : c.relay.phase = .ended := hnone.resolve_left fun hc => by
        cases hc.symm.trans hrouting
      simp only [DeviceRelays.wire, hreader, Option.bind_some]
      exact if_pos hended
  exact ⟨h.wire.step (a := .advance 0) trivial hstep, h.ended⟩

theorem Sound.others {reader : TransferLoop} {inRoute : Bool} {wTx : List UsbDevicePacket}
    {conns : KeyTable UInt16 RelayConn}
    (h : ∀ c, s.conn port = some c →
      Sound codec port results before { s with reader := reader, inRoute := inRoute } c)
    (hc : s.others wTx port = some c) :
    Sound codec port results before ⟨reader, conns, wTx, inRoute⟩ c := by
  obtain ⟨d, hd, rfl⟩ := Option.map_eq_some_iff.mp hc
  exact ⟨(h d hd).wire.channel wTx, (h d hd).ended⟩

/-- The connection of the port is sound, if there is one. -/
def SoundAt (codec : TcpCodec) (port : UInt16) (results : List BulkRead)
    (before : List UsbDevicePacket) (s : DeviceRelays) : Prop :=
  ∀ c, s.conn port = some c → s.Sound codec port results before c

theorem SoundAt.route (h : s.SoundAt codec port results before) {reader : TransferLoop}
    {packet : UsbDevicePacket} {acked : ℕ} (hreader : s.reader.step codec .advance = some reader)
    (hroutes : s.reader.routes = some packet) (hst : s.route reader packet acked = some t) :
    t.SoundAt codec port results before := by
  -- a packet for another connection
  have hother (hport : port ≠ RouterLock.routePort packet) (c : RelayConn)
      (hc : s.conn port = some c) :
      Sound codec port results before { s with reader := reader, inRoute := false } c := by
    refine (h c hc).advance hreader (Or.inl ?_) false
    rw [routing_wire hroutes, if_neg hport.symm]
  unfold DeviceRelays.route at hst
  cases hq : s.conn (RouterLock.routePort packet) with
  | none =>
    -- nobody has the port: the packet is dropped
    rw [hq] at hst
    cases hst
    intro c hc
    refine hother (fun hport => ?_) c hc
    rw [← hport] at hq
    cases hq.symm.trans hc
  | some d =>
    rw [hq] at hst
    dsimp only at hst
    split_ifs at hst with hregistered hended
    · cases hst
      intro c hc
      by_cases hport : port = RouterLock.routePort packet
      · rw [← hport] at hq
        obtain rfl : d = c := Option.some.inj (hq.symm.trans hc)
        exact (h d hq).advance hreader (Or.inr ((h d hq).ended hregistered)) false
      · exact hother hport c hc
    · cases hrelay : d.relay.step (.deviceData ⟨packet, acked⟩) with
      | none =>
        rw [hrelay] at hst
        cases hst
        -- the queue is full: the loop waits with the packet
        exact fun c hc => ⟨(h c hc).wire, (h c hc).ended⟩
      | some relay =>
        rw [hrelay] at hst
        cases hst
        intro c hc
        have hput := conn_put { s with reader := reader, inRoute := false } port
          (RouterLock.routePort packet) ⟨relay, d.registered⟩
        have hc' := hput.symm.trans hc
        split_ifs at hc' with hport
        · rw [← hport] at hq
          cases hc'
          have hsome : (s.wire d.relay).routing port = some packet := by
            rw [routing_wire hroutes, if_pos hport.symm]
          have hstep : (s.wire d.relay).step codec port (.advance acked) =
              some ⟨reader, relay⟩ := by
            simp only [DownloadWire.step, hsome]
            simp only [wire, hreader, Option.bind_some, if_neg hended, hrelay, Option.map_some]
          exact ⟨(h d hq).wire.step (a := .advance acked) trivial hstep,
            fun hc => absurd hc hregistered⟩
        · exact Sound.others (hother hport) hc'

theorem SoundAt.step (h : s.SoundAt codec port results before) {a : Action}
    (hk : s.KeepsHeld port a) (hst : s.step codec a = some t) :
    t.SoundAt codec port results before := by
  cases a with
  | poll early =>
    obtain ⟨reader, hreader, rfl⟩ := Option.map_eq_some_iff.mp hst
    intro c hc
    refine ⟨(h c hc).wire.step (a := .poll early) trivial ?_, (h c hc).ended⟩
    simp only [DownloadWire.step, wire, hreader, Option.map_some]
  | complete =>
    obtain ⟨reader, hreader, rfl⟩ := Option.map_eq_some_iff.mp hst
    intro c hc
    refine ⟨(h c hc).wire.step (a := .complete) trivial ?_, (h c hc).ended⟩
    simp only [DownloadWire.step, wire, hreader, Option.map_some]
  | advance acked =>
    obtain ⟨reader, hreader, hst⟩ := Option.bind_eq_some_iff.mp hst
    cases hroutes : s.reader.routes with
    | none =>
      rw [hroutes] at hst
      cases hst
      intro c hc
      refine (h c hc).advance hreader (Or.inl ?_) false
      change s.reader.routes.filter (DownloadWire.toPort port) = none
      rw [hroutes]
      rfl
    | some packet =>
      rw [hroutes] at hst
      exact h.route hreader hroutes hst
  | relay q action =>
    obtain ⟨ha, d, relay, hd, hrelay, rfl⟩ := relay_step hst
    intro c hc
    rw [conn_put] at hc
    split_ifs at hc with hport
    · subst hport
      cases hc
      -- this connection, as one whose wire is the device's
      have hs := h d hd
      obtain ⟨wTx, hsettle⟩ := s.settle_relay port d relay
      have hstep : (s.wire d.relay).step codec port (.relay action) = some (s.wire relay) := by
        cases action with
        | deviceData a => exact absurd rfl (ha a)
        | _ => simp only [DownloadWire.step, wire, hrelay, Option.map_some]
      constructor
      · rw [hsettle]
        exact (hs.wire.step (a := .relay action) (hk rfl d hd) hstep).channel wTx
      · intro hregistered
        rw [hsettle]
        change relay.phase = .ended
        -- out of the router is who has ended, now or before
        rcases settle_registered hregistered with hended | hbefore
        · exact hended
        · by_contra hne
          exact Relay.phase_ne_ended_of_step hrelay hne (hs.ended hbefore)
    · exact Sound.others (fun c hc => h c hc) hc

/-- A running relay of the connection, along a run, behind a loop that can go on. -/
structure Live (codec : TcpCodec) (port : UInt16) (results : List BulkRead)
    (before : List UsbDevicePacket) (s : DeviceRelays) : Prop where
  sound : s.SoundAt codec port results before
  clear : s.Clear
  running : ∃ c, s.conn port = some c ∧ c.relay.Running

/-- The client has got what there is for it. -/
structure Done (codec : TcpCodec) (port : UInt16) (results : List BulkRead)
    (before : List UsbDevicePacket) (s : DeviceRelays) : Prop where
  sound : s.SoundAt codec port results before
  reader : s.reader.AtEnd
  relay : ∃ c, s.conn port = some c ∧ c.relay.Selecting ∧ c.relay.rx = []

/-- The end, or a state with less to come. -/
def Nearer (codec : TcpCodec) (port : UInt16) (results : List BulkRead)
    (before : List UsbDevicePacket) (m : ℕ) (s : DeviceRelays) : Prop :=
  s.Done codec port results before ∨
    s.Live codec port results before ∧ s.reader.coming.length < m

/-- A connection is put back by a step that neither ends it nor lets the loop wait. -/
theorem Clear.put (h : s.Clear) {q : UInt16} {d : RelayConn} (hd : s.conn q = some d)
    (hrunning : c.relay.Running ∨ c.relay.phase = d.relay.phase)
    (hregistered : c.registered = d.registered) : (s.put q c).Clear where
  registered p e he hreg := by
    rw [conn_put] at he
    split_ifs at he with hp
    · cases he
      rcases hrunning with hr | hsame
      · exact hr.2
      · rw [hsame]
        exact h.registered q d hd (hregistered ▸ hreg)
    · obtain ⟨b, hb, rfl⟩ := Option.map_eq_some_iff.mp he
      exact h.registered p b hb hreg
  waits p e he hwaits := by
    rw [conn_put] at he
    split_ifs at he with hp
    · cases he
      rcases hrunning with hr | hsame
      · exact hr
      · rw [Relay.Running, hsame]
        exact h.waits q d hd (hp ▸ hwaits)
    · obtain ⟨b, hb, rfl⟩ := Option.map_eq_some_iff.mp he
      exact h.waits p b hb hwaits

/-- The steps of one relay that forward what has come. -/
theorem step_of_forward {q : UInt16} {relay : Relay} {action : Relay.Action}
    (hq : s.conn q = some c) (h : c.relay.forward action = some relay) :
    s.KeepsHeld port (.relay q action) ∧
      s.step codec (.relay q action) = some (s.put q ⟨relay, c.registered⟩) := by
  have hphase := Relay.phase_of_forward h
  have hsettle : s.settle q c relay = ⟨relay, c.registered⟩ := by
    unfold settle
    refine if_neg fun hc => ?_
    rcases hphase with hrunning | hsame
    · exact hrunning.2 hc.1
    · exact hc.2 (hsame ▸ hc.1)
  unfold Relay.forward at h
  split_ifs at h with ha
  cases action <;> first
    | cases ha; done
    | exact ⟨(fun _ _ _ _ _ _ hc => by cases hc),
        by simp only [step, hq, h, Option.bind_some, Option.map_some, hsettle]⟩

/-- What a relay can do by itself, it can do among the others. -/
theorem SoundAt.canReach_forward (h : s.SoundAt codec port results before) (hclear : s.Clear)
    {q : UInt16} (hq : s.conn q = some c) {Q : Relay → Prop}
    (hcan : CanReach Relay.forward Q c.relay) : CanReach (DeviceRelays.step codec) (fun t =>
      (∃ relay, t.conn q = some ⟨relay, c.registered⟩ ∧ Q relay) ∧ t.reader = s.reader ∧
        t.inRoute = s.inRoute ∧ t.SoundAt codec port results before ∧ t.Clear ∧
          ∀ p, p ≠ q → t.conns.get p = s.conns.get p) s := by
  let Follows (t : DeviceRelays) (w : Relay) : Prop := t.conn q = some ⟨w, c.registered⟩ ∧
    t.reader = s.reader ∧ t.inRoute = s.inRoute ∧ t.SoundAt codec port results before ∧ t.Clear ∧
      ∀ p, p ≠ q → t.conns.get p = s.conns.get p
  have hfollow (t : DeviceRelays) (w : Relay) (action : Relay.Action) (w' : Relay)
      (hr : Follows t w) (hst : w.forward action = some w') :
      ∃ b u, t.step codec b = some u ∧ Follows u w' := by
    obtain ⟨hw, hreader, hinRoute, hsound, hclear, hothers⟩ := hr
    obtain ⟨hk, hstep⟩ : t.KeepsHeld port (.relay q action) ∧
        t.step codec (.relay q action) = some (t.put q ⟨w', c.registered⟩) :=
      step_of_forward (c := ⟨w, c.registered⟩) hw hst
    refine ⟨_, _, hstep, ?_, hreader, hinRoute, hsound.step hk hstep,
      hclear.put hw (Relay.phase_of_forward hst) rfl, fun p hp => ?_⟩
    · rw [conn_put, if_pos rfl]
    · exact (KeyTable.get_insert_of_ne t.conns _ hp).trans (hothers p hp)
  have hsimulated := CanReach.simulated hfollow hcan ⟨hq, rfl, rfl, h, hclear, fun _ _ => rfl⟩
  refine hsimulated.mono fun t ht => ?_
  obtain ⟨w, ⟨hw, hrest⟩, hQ⟩ := ht
  exact ⟨⟨w, hw, hQ⟩, hrest⟩

/-- The client can be given all that has been put on the queue. -/
theorem Live.canReach_idle (h : s.Live codec port results before) :
    CanReach (step codec) (fun t => t.Live codec port results before ∧ t.reader = s.reader ∧
      ∃ c, t.conn port = some c ∧ c.relay.Selecting ∧ c.relay.rx = []) s := by
  obtain ⟨c, hc, hrunning⟩ := h.running
  refine (h.sound.canReach_forward h.clear hc (Relay.canReach_idle hrunning)).mono fun t ht => ?_
  obtain ⟨⟨relay, hrelay, hselecting, hrx⟩, hreader, -, hsound, hclear, -⟩ := ht
  exact ⟨⟨hsound, hclear, _, hrelay, hselecting.running⟩, hreader, _, hrelay, hselecting, hrx⟩

/-- The relay of the connection stays as it is while another one goes on. -/
theorem running_of_others (hrunning : ∃ c, s.conn port = some c ∧ c.relay.Running)
    (hget : t.conns.get port = s.conns.get port) :
    ∃ c, t.conn port = some c ∧ c.relay.Running := by
  obtain ⟨c, hc, hrunning⟩ := hrunning
  obtain ⟨d, hd, rfl⟩ := conn_eq_some_iff.mp hc
  exact ⟨_, conn_eq_some_iff.mpr ⟨d, hget.trans hd, rfl⟩, hrunning⟩

/-- The reset of a relay that is closing goes out, and the router forgets it. -/
theorem closeDone_step (codec : TcpCodec) {q : UInt16} (hq : s.conn q = some c)
    (hp : c.relay.phase = .closing) (hwTx : c.relay.wTx = []) (hwaits : s.waitsFor q = false) : ∃ d, d.registered = false ∧
      d.relay.phase = .ended ∧ s.step codec (.relay q .closeDone) = some (s.put q d) := by
  obtain ⟨relay, hstep, hended, hroom⟩ : ∃ relay, c.relay.step .closeDone = some relay ∧
      relay.phase = .ended ∧ relay.hasRoom = true := by
    have hroom := Relay.hasRoom_of_drained hwTx
    simp only [Relay.step, hp, hroom, if_true]
    refine ⟨_, rfl, rfl, ?_⟩
    rw [Relay.hasRoom, hwTx]
    rfl
  have hnew : relay.phase = .ended ∧ c.relay.phase ≠ .ended := by
    refine ⟨hended, fun hc => ?_⟩
    cases hp.symm.trans hc
  refine ⟨s.settle q c relay, ?_, ?_, ?_⟩
  · unfold settle
    rw [if_pos hnew, hwaits, Bool.and_false, if_pos hroom]
    split_ifs <;> rfl
  · obtain ⟨wTx, hsettle⟩ := s.settle_relay q c relay
    rw [hsettle]
    exact hended
  · simp only [step, hq, hstep, Option.bind_some, Option.map_some]

/-- A connection that the router has forgotten is no hindrance. -/
theorem Clear.close (h : s.Clear) {q : UInt16} (hwaits : s.waitsFor q = false)
    (hregistered : c.registered = false) : (s.put q c).Clear where
  registered p e he hreg := by
    rw [conn_put] at he
    split_ifs at he with hp
    · cases he
      rw [hregistered] at hreg
      cases hreg
    · obtain ⟨b, hb, rfl⟩ := Option.map_eq_some_iff.mp he
      exact h.registered p b hb hreg
  waits p e he hw := by
    rw [conn_put] at he
    split_ifs at he with hp
    · subst hp
      cases hwaits.symm.trans hw
    · obtain ⟨b, hb, rfl⟩ := Option.map_eq_some_iff.mp he
      exact h.waits p b hb hw

/-- No connection need hold up the loop: it is out of the router, or its queue is empty. -/
theorem Live.canReach_free (h : s.Live codec port results before) (q : UInt16) :
    CanReach (step codec) (fun t => t.Live codec port results before ∧ t.reader = s.reader ∧
      ∀ c, t.conn q = some c → c.registered = true → c.relay.rx = []) s := by
  by_cases hport : q = port
  · subst hport
    refine h.canReach_idle.mono fun t ⟨hlive, hreader, c, hc, _, hrx⟩ => ?_
    refine ⟨hlive, hreader, fun d hd _ => ?_⟩
    cases hc.symm.trans hd
    exact hrx
  have hne : port ≠ q := fun hp => hport hp.symm
  cases hq : s.conn q with
  | none => exact CanReach.now ⟨h, rfl, fun _ hc => by cases hq.symm.trans hc⟩
  | some c =>
    cases hregistered : c.registered with
    | false =>
      refine CanReach.now ⟨h, rfl, fun d hd hreg => ?_⟩
      cases hq.symm.trans hd
      cases hregistered.symm.trans hreg
    | true =>
      by_cases hclosing : c.relay.phase = .closing
      · -- the loop does not wait for it, so that `close` ends
        have hwaits : s.waitsFor q = false := by
          rw [← Bool.not_eq_true]
          exact fun hw => (h.clear.waits q c hq hw).1 hclosing
        refine (h.sound.canReach_forward h.clear hq (Relay.canReach_drained c.relay)).bind
          fun t ⟨⟨relay, hc, hwTx, hphase, _⟩, hreader, hinRoute, hsound, hclear, hothers⟩ => ?_
        have hwaits' : t.waitsFor q = false := by
          rw [waitsFor, hinRoute, hreader]
          exact hwaits
        obtain ⟨d, hforgotten, -, hstep⟩ := closeDone_step codec hc (hphase.trans hclosing) hwTx
          hwaits'
        refine CanReach.of_step hstep (CanReach.now ⟨⟨?_, hclear.close hwaits' hforgotten, ?_⟩,
          hreader, fun e he hreg => ?_⟩)
        · exact hsound.step (a := .relay q .closeDone) (fun _ _ _ _ _ _ hc => by cases hc) hstep
        · refine running_of_others h.running ?_
          exact (KeyTable.get_insert_of_ne t.conns d hne).trans (hothers port hne)
        · rw [conn_put, if_pos rfl] at he
          cases he
          cases hforgotten.symm.trans hreg
      · -- the relay runs, so that it comes to empty its queue
        have hrunning : c.relay.Running := ⟨hclosing, h.clear.registered q c hq hregistered⟩
        refine (h.sound.canReach_forward h.clear hq (Relay.canReach_idle hrunning)).mono
          fun t ⟨⟨relay, hc, _, hrx⟩, hreader, _, hsound, hclear, hothers⟩ => ?_
        refine ⟨⟨hsound, hclear, running_of_others h.running (hothers port hne)⟩, hreader,
          fun d hd _ => ?_⟩
        cases hc.symm.trans hd
        exact hrx

theorem Live.atEnd (h : s.Live codec port results before) (hend : s.reader.AtEnd) (m : ℕ) :
    CanReach (step codec) (Nearer codec port results before m) s := by
  refine h.canReach_idle.mono fun t ⟨hlive, hreader, hidle⟩ => ?_
  exact Or.inl ⟨hlive.sound, hreader ▸ hend, hidle⟩

theorem Live.simulates (h : s.Live codec port results before) :
    s.reader.Simulates codec results := by
  obtain ⟨c, hc, -⟩ := h.running
  exact (h.sound c hc).wire.reader

/-- A step of the loop that routes nothing, and keeps what it has for the router. -/
theorem Live.read (h : s.Live codec port results before) {reader : TransferLoop} {a : Action}
    (hk : s.KeepsHeld port a) (hst : s.step codec a = some { s with reader := reader })
    (hroutes : reader.routes = none ∨ reader.routes = s.reader.routes) :
    Live codec port results before { s with reader := reader } := by
  refine ⟨h.sound.step hk hst, ⟨h.clear.registered, fun q c hc hw => ?_⟩, h.running⟩
  rcases hroutes with hnone | hsame
  · rw [waitsFor, hnone, Option.any_none, Bool.and_false] at hw
    cases hw
  · rw [waitsFor, hsame] at hw
    exact h.clear.waits q c hc hw

/-- The loop polls, where it needs bytes. -/
theorem Live.reads (h : s.Live codec port results before) {n : ℕ} {got : Bytes}
    {next : Bytes → ReadProgram UInt8 (Outcome UsbDevicePacket)}
    (htask : s.reader.task = .reading n got next) (hlt : got.length < n) :
    CanReach (step codec) (Nearer codec port results before s.reader.coming.length) s := by
  by_cases hcoming : s.reader.coming = []
  · exact h.atEnd (Or.inr ⟨n, got, next, htask, hlt, hcoming⟩) _
  -- a poll of the loop, wherever it gets bytes
  have hpoll {t : DeviceRelays} (ht : t.Live codec port results before)
      (httask : t.reader.task = .reading n got next)
      (hreturns : t.reader.polls.Returns (n-got.length)) : CanReach (step codec)
        (Nearer codec port results before t.reader.coming.length) t := by
    obtain ⟨reader, hreader, hroutes, hless⟩ :=
      TransferLoop.exists_poll ht.simulates httask hlt hreturns
    have hstep : t.step codec (.poll true) = some { t with reader := reader } := by
      simp only [step, hreader, Option.map_some]
    exact CanReach.of_step hstep (CanReach.now (Or.inr
      ⟨ht.read (a := .poll true) trivial hstep (Or.inl hroutes), hless⟩))
  have hpolls := h.simulates.undisturbed.polls
  have hne : s.reader.polls.reader.left ≠ [] ∨ s.reader.polls.waiting ≠ [] := by
    by_contra hc
    rw [not_or, not_not, not_not] at hc
    apply hcoming
    rw [TransferLoop.coming, hc.1, hc.2]
    rfl
  rcases ReaderPolls.returns_or_completes hpolls.sound hpolls.succeed hne (n-got.length) with
    hreturns | ⟨polls, hcomplete, hreturns⟩
  · exact hpoll h htask hreturns
  · obtain ⟨hreader, hsame⟩ := TransferLoop.complete_step h.simulates hcomplete
    have hstep : s.step codec .complete =
        some { s with reader := { s.reader with polls := polls } } := by
      simp only [step, hreader, Option.map_some]
    have hagain := hpoll (t := { s with reader := { s.reader with polls := polls } })
      (h.read (a := .complete) trivial hstep (Or.inr rfl)) htask hreturns
    rw [← hsame]
    exact CanReach.of_step hstep hagain

/-- `route` does not wait where the queue of the port is empty. -/
theorem Live.exists_route (h : s.Live codec port results before) {packet : UsbDevicePacket}
    {reader : TransferLoop} (hreader : s.reader.step codec .advance = some reader)
    (hroutes : s.reader.routes = some packet)
    (hfree : ∀ c, s.conn (RouterLock.routePort packet) = some c → c.registered = true →
      c.relay.rx = []) :
    ∃ t, s.route reader packet 0 = some t ∧ t.reader = reader ∧
      t.Live codec port results before := by
  have hforgets (hroute : s.route reader packet 0 =
      some { s with reader := reader, inRoute := false }) : ∃ t, s.route reader packet 0 = some t ∧
        t.reader = reader ∧ t.Live codec port results before :=
    ⟨_, hroute, rfl, h.sound.route hreader hroutes hroute,
      ⟨h.clear.registered, fun _ _ _ hw => by cases hw⟩, h.running⟩
  cases hq : s.conn (RouterLock.routePort packet) with
  | none => exact hforgets (by simp only [route, hq])
  | some c =>
    cases hregistered : c.registered with
    | false => exact hforgets (by simp only [route, hq, hregistered, if_true])
    | true =>
      -- the queue is registered and empty, so that it takes the packet
      have hended : c.relay.phase ≠ .ended := h.clear.registered _ c hq hregistered
      have hrx : c.relay.rx = [] := hfree c hq hregistered
      obtain ⟨relay, hrelay, hphase⟩ : ∃ relay,
          c.relay.step (.deviceData ⟨packet, 0⟩) = some relay ∧ relay.phase = c.relay.phase := by
        simp only [Relay.step, hrx, List.length_nil]
        exact ⟨_, rfl, rfl⟩
      have hroute : s.route reader packet 0 =
          some { s.put (RouterLock.routePort packet) ⟨relay, c.registered⟩ with
            reader := reader
            inRoute := false } := by
        simp only [route, hq, hregistered, Bool.true_eq_false, if_false, if_neg hended, hrelay]
      have hclear := h.clear.put (c := ⟨relay, c.registered⟩) hq (Or.inr hphase) rfl
      refine ⟨_, hroute, rfl, h.sound.route hreader hroutes hroute,
        ⟨hclear.registered, fun _ _ _ hw => (by cases hw)⟩, ?_⟩
      obtain ⟨mine, hmine, hrunning⟩ := h.running
      have hconn := conn_put s port (RouterLock.routePort packet) ⟨relay, c.registered⟩
      -- the relay of the port runs on, whether or not the packet was for it
      by_cases hport : port = RouterLock.routePort packet
      · rw [if_pos hport] at hconn
        rw [hport, hq] at hmine
        cases hmine
        refine ⟨_, hconn, ?_⟩
        rw [Relay.Running, hphase]
        exact hrunning
      · rw [if_neg hport, others, hmine] at hconn
        exact ⟨_, hconn, hrunning⟩

/-- The loop goes on once the queue has room for what it routes. -/
theorem Live.advances (h : s.Live codec port results before) {m : ℕ}
    {P : TransferLoop → Prop} (hreader : ∃ t, s.reader.step codec .advance = some t ∧ P t)
    (hP : ∀ t : DeviceRelays, t.Live codec port results before → P t.reader →
      CanReach (step codec) (Nearer codec port results before m) t) :
    CanReach (step codec) (Nearer codec port results before m) s := by
  obtain ⟨reader, hreader, hp⟩ := hreader
  cases hroutes : s.reader.routes with
  | none =>
    have hstep : s.step codec (.advance 0) =
        some { s with reader := reader, inRoute := false } := by
      simp only [step, hreader, hroutes, Option.bind_some]
    exact CanReach.of_step hstep (hP _ ⟨h.sound.step (a := .advance 0) trivial hstep,
      ⟨h.clear.registered, fun _ _ _ hw => (by cases hw)⟩, h.running⟩ hp)
  | some packet =>
    refine (h.canReach_free (RouterLock.routePort packet)).bind fun t ⟨hlive, hsame, hfree⟩ => ?_
    rw [← hsame] at hreader hroutes
    obtain ⟨u, hroute, rfl, hnext⟩ := hlive.exists_route hreader hroutes hfree
    have hstep : t.step codec (.advance 0) = some u := by
      simp only [step, hreader, hroutes, Option.bind_some, hroute]
    exact CanReach.of_step hstep (hP u hnext hp)

/-- From any place in a call of `from_reader`. -/
theorem Live.goesOn {program : ReadProgram UInt8 (Outcome UsbDevicePacket)}
    (h : s.Live codec port results before) (htask : s.reader.task = .of program) :
    CanReach (step codec) (Nearer codec port results before s.reader.coming.length) s := by
  induction program generalizing s with
  | done o =>
    refine h.advances (TransferLoop.advance_returned htask) fun t ht ⟨hnext, hcoming⟩ => ?_
    rw [← hcoming]
    rcases hnext with hended | hread
    · exact ht.atEnd (Or.inl hended) _
    · -- a header is read first
      exact ht.reads hread (Nat.le_of_ble_eq_true rfl)
  | readExact n next ih =>
    by_cases hpos : 0 < n
    · exact h.reads htask hpos
    · have hge : n ≤ ([] : Bytes).length := Nat.le_of_not_lt hpos
      refine h.advances (TransferLoop.advance_reading htask hge) fun t ht ⟨hnext, hcoming⟩ => ?_
      rw [← hcoming]
      exact ih [] ht hnext

theorem Live.canReach_nearer (h : s.Live codec port results before) :
    CanReach (step codec) (Nearer codec port results before s.reader.coming.length) s := by
  cases htask : s.reader.task with
  | reading n got next =>
    by_cases hlt : got.length < n
    · exact h.reads htask hlt
    · have hge : n ≤ got.length := Nat.not_lt.mp hlt
      refine h.advances (TransferLoop.advance_reading htask hge) fun t ht ⟨hnext, hcoming⟩ => ?_
      rw [← hcoming]
      exact ht.goesOn hnext
  | returned o =>
    have hof : s.reader.task = .of (.done o) := htask
    exact h.goesOn hof
  | ended => exact h.atEnd (Or.inl htask) _

theorem Live.canReach_done (h : s.Live codec port results before) :
    CanReach (step codec) (Done codec port results before) s :=
  have hnearer (t : DeviceRelays) (ht : t.Live codec port results before) :
      CanReach (step codec) (fun u => u.Done codec port results before ∨
        u.Live codec port results before ∧ u.reader.coming.length < t.reader.coming.length) t :=
    ht.canReach_nearer
  StepSystem.canReach_of_variant (fun t => t.reader.coming.length) hnearer h

theorem Starts.soundAt {before : UInt16 → List UsbDevicePacket} (h : s.Starts before)
    (hresults : ∀ result ∈ results, result.status = 0 ∧ result.data ≠ [])
    {bs : List TransferLoop.Action}
    (hreader : StepSystem.after (TransferLoop.step codec) (.start codec results) bs =
      some s.reader) (port : UInt16) : s.SoundAt codec port results (before port) := by
  intro c hc
  obtain ⟨hregistered, conn, rx, sentTotal, ackedTotal, hrelay, rfl, hrx⟩ := h.each port c hc
  refine ⟨?_, fun hc => ?_⟩
  · rw [hrelay]
    exact DownloadWire.sound_start hresults hreader conn hrx s.wTx sentTotal ackedTotal
  · cases hregistered.symm.trans hc

/-- Whatever a device sends in its transfers, and whatever its relays, their clients
and the loops have done so far: as long as no connection has ended with its queue left
in the router or under the waiting loop, the client of each relay that runs can still
be brought all that the loop routes to it of the device's bytes in one stream. -/
theorem downloads_go_on {before : UInt16 → List UsbDevicePacket} {start : DeviceRelays}
    (hresults : ∀ result ∈ results, result.status = 0 ∧ result.data ≠ [])
    {bs : List TransferLoop.Action}
    (hreader : StepSystem.after (TransferLoop.step codec) (.start codec results) bs =
      some start.reader) (hstart : start.Starts before) {as : List Action}
    (ha : StepSystem.EveryStep (step codec) (KeepsHeld port) start as)
    (hs : StepSystem.after (step codec) start as = some s) (hclear : s.Clear)
    (hrunning : ∃ c, s.conn port = some c ∧ c.relay.Running) :
    CanReach (step codec) (fun t => ∃ c, t.conn port = some c ∧ c.relay.clientOut =
      Relay.payloads (((ReaderLoop.start.startReaderLoop codec
        (ReaderPolls.transferData results)).routed.filter
          (DownloadWire.toPort port)).drop (before port).length)) s := by
  have hsound : s.SoundAt codec port results (before port) :=
    (StepSystem.everyState_of_everyStep (fun _ _ _ h hk hst => h.step hk hst)
      (hstart.soundAt hresults hreader port) ha).last hs
  have hlive : s.Live codec port results (before port) := ⟨hsound, hclear, hrunning⟩
  refine hlive.canReach_done.mono fun t ht => ?_
  obtain ⟨c, hc, ⟨sendable, hphase⟩, hrx⟩ := ht.relay
  have hwire := (ht.sound c hc).wire
  refine ⟨c, hc, hwire.clientOut_eq hphase hrx ?_⟩
  have hrouted := hwire.reader.routed_of_atEnd ht.reader
  have hsplit := hwire.filter_routed
  rw [hrouted] at hsplit ⊢
  exact hsplit

/-- Ports 1 and 2 of a device that sends a byte to port 1. -/
def twoRelays : DeviceRelays where
  reader := .start tcpWire.toTcpCodec DownloadWire.byteTransfers
  conns := (KeyTable.empty.insert 2 ⟨.start (.newFrom 62078 2 1 1 512 1) [] [] 0 0, true⟩).insert 1
    ⟨.start (.newFrom 62078 1 1 1 512 1) [] [] 0 0, true⟩
  wTx := []
  inRoute := false

theorem twoRelays_starts : twoRelays.Starts fun _ => [] where
  each port c hc := by
    obtain ⟨d, hget, rfl⟩ := conn_eq_some_iff.mp hc
    rw [twoRelays, KeyTable.get_insert, KeyTable.get_insert] at hget
    split_ifs at hget with h1 h2
    · cases hget
      exact ⟨rfl, _, [], 0, 0, rfl, h1.symm, rfl⟩
    · cases hget
      exact ⟨rfl, _, [], 0, 0, rfl, h2.symm, rfl⟩
    · cases hget
  inRoute := rfl

/-- A part of the packet has come, and the relay of port 2 is sending. -/
def byteUnderWay : DeviceRelays :=
  (StepSystem.after (step tcpWire.toTcpCodec) twoRelays
    [.poll true, .relay 2 (.clientWrites [1]), .advance 0, .relay 2 (.pollClient 1)]).get
      (by decide)

theorem downloads_go_on_byte : CanReach (step tcpWire.toTcpCodec)
    (fun t => ∃ c, t.conn 1 = some c ∧ c.relay.clientOut = [7]) byteUnderWay := by
  have hresults : ∀ result ∈ DownloadWire.byteTransfers, result.status = 0 ∧ result.data ≠ [] := by
    decide
  have hreader : StepSystem.after (TransferLoop.step tcpWire.toTcpCodec)
      (.start tcpWire.toTcpCodec DownloadWire.byteTransfers) [] = some twoRelays.reader := rfl
  have hquiet : StepSystem.EveryStep (step tcpWire.toTcpCodec) (KeepsHeld 1) twoRelays
      [.poll true, .relay 2 (.clientWrites [1]), .advance 0, .relay 2 (.pollClient 1)] :=
    ⟨trivial, (fun hc => absurd hc (by decide)), trivial, (fun hc => absurd hc (by decide)),
      trivial⟩
  have hafter : StepSystem.after (step tcpWire.toTcpCodec) twoRelays
      [.poll true, .relay 2 (.clientWrites [1]), .advance 0, .relay 2 (.pollClient 1)] =
        some byteUnderWay := (Option.some_get _).symm
  have hclear : byteUnderWay.Clear := by
    refine ⟨fun port c hc _ => ?_, fun port c _ hw => by cases hw⟩
    have hphases : ∀ e ∈ byteUnderWay.conns.entries, e.2.relay.phase ≠ .ended := by decide
    obtain ⟨d, hget, rfl⟩ := conn_eq_some_iff.mp hc
    exact hphases _ ((KeyTable.get_eq_some_iff _ _ _).mp hget)
  have hrunning : ∃ c, byteUnderWay.conn 1 = some c ∧ c.relay.Running :=
    ⟨_, rfl, (fun hc => by cases hc), (fun hc => by cases hc)⟩
  have hgoesOn := downloads_go_on hresults hreader twoRelays_starts hquiet hafter hclear hrunning
  have hps : ∀ p ∈ [DownloadWire.byteFor1], ∃ protocol, p.WellFormed protocol := by
    intro p hp
    rw [List.mem_singleton.mp hp]
    exact ⟨.tcp, UsbDevicePacketBuilder.build_wellFormed writeXml
      (.tcpBytes 0 0 ⟨62078, 1, 1, 1, .ACK⟩ [7]) (by decide)⟩
  have hdata : ReaderPolls.transferData DownloadWire.byteTransfers =
      [DownloadWire.byteFor1].flatMap (UsbDevicePacket.encode tcpWire) := by decide
  rw [DownloadWire.routed_encode tcpWire_lawful hps hdata] at hgoesOn
  exact hgoesOn

/-- The loop waits for the queue of a connection, which nothing empties: the relay has
ended or is about to, or it waits itself for its client to take bytes. -/
structure HeldUp (q : UInt16) (s : DeviceRelays) : Prop where
  waits : s.waitsFor q = true
  conn : ∃ c, s.conn q = some c ∧ c.registered = true ∧
    (c.relay.phase = .ended ∨ QUEUE_SIZE ≤ c.relay.rx.length ∧
      (c.relay.phase = .closing ∨ ∃ b bs, c.relay.phase = .clientSend (b :: bs)))

/-- The relay of the port has ended or is about to. -/
def Leaving (q : UInt16) (s : DeviceRelays) : Prop :=
  ∃ c, s.conn q = some c ∧ ¬ c.relay.Running

/-- The client of the connection takes nothing. -/
def Unread (q : UInt16) : Action → Prop
  | .relay p (.clientTakes _) => p ≠ q
  | _ => True

/-- The packets that a relay has got or is to get. -/
def queuedFor (s : DeviceRelays) (port : UInt16) : Option (List UsbDevicePacket) :=
  (s.conn port).map fun c => c.relay.taken ++ c.relay.rx.map Arrival.packet

/-- Nothing has got to any queue. -/
structure Idles (s t : DeviceRelays) : Prop where
  loop : t.reader.loop = s.reader.loop
  queued : ∀ port, t.queuedFor port = s.queuedFor port

theorem queuedFor_relay {q : UInt16} {action : Relay.Action}
    (hst : s.step codec (.relay q action) = some t) (port : UInt16) :
    t.queuedFor port = s.queuedFor port := by
  obtain ⟨ha, c, relay, hc, hrelay, rfl⟩ := relay_step hst
  have hqueued := Relay.queued_of_step ha hrelay
  obtain ⟨wTx, hsettle⟩ := s.settle_relay q c relay
  rw [queuedFor, queuedFor, conn_put]
  split_ifs with hport
  · rw [hport, hc, Option.map_some, hsettle]
    exact congrArg some hqueued
  · rw [others, Option.map_map]
    rfl

/-- A relay that waits for its client, or is about to end, goes on so. -/
theorem waits_of_step {relay relay' : Relay} {action : Relay.Action}
    (hp : relay.phase = .closing ∨ ∃ b bs, relay.phase = .clientSend (b :: bs))
    (ha : ∀ a, action ≠ .deviceData a)
    (htakes : relay.phase = .closing ∨ ∀ k, action ≠ .clientTakes k)
    (hst : relay.step action = some relay') :
    relay'.phase = .ended ∨ relay'.phase = relay.phase ∧ relay'.rx = relay.rx := by
  cases Relay.move_of_step hst with
  | deviceData a => exact absurd rfl (ha a)
  | writerTakes | otherSends | clientWrites | clientCloses | cancel => exact Or.inr ⟨rfl, rfl⟩
  | closeDone | clientSendFails => exact Or.inl rfl
  | clientTakes k remaining hphase =>
    rcases htakes with hclosing | htakes
    · cases hclosing.symm.trans hphase
    · exact absurd rfl (htakes k)
  | clientSendDone hphase | acked _ _ _ hphase | held _ _ _ hphase | pollAck _ _ hphase
  | recvFails _ _ hphase | pollClient _ _ _ _ _ hphase | clientReadFails _ _ hphase
  | pollShutdown _ _ hphase | sendDone _ hphase | sendFails _ hphase =>
    rw [hphase] at hp
    rcases hp with hp | ⟨b, bs, hp⟩ <;> cases hp

/-- `unregister` waits for the guard of the loop that waits. -/
theorem settle_of_waits {q : UInt16} (hw : s.waitsFor q = true) (c : RelayConn) (relay : Relay) :
    (s.settle q c relay).registered = c.registered := by
  unfold settle
  simp only [hw, Bool.and_true]
  split_ifs <;> rfl

theorem HeldUp.relay {q p : UInt16} (h : s.HeldUp q) {action : Relay.Action}
    (ha : s.Leaving q ∨ Unread q (.relay p action))
    (hst : s.step codec (.relay p action) = some t) :
    t.HeldUp q ∧ (s.Leaving q → t.Leaving q) := by
  obtain ⟨hdata, d, relay, hd, hrelay, rfl⟩ := relay_step hst
  obtain ⟨c, hc, hregistered, hphase⟩ := h.conn
  by_cases hp : q = p
  · subst hp
    obtain rfl : c = d := Option.some.inj (hc.symm.trans hd)
    have hafter : (s.put q (s.settle q c relay)).conn q = some (s.settle q c relay) := by
      rw [conn_put, if_pos rfl]
    obtain ⟨wTx, hsettle⟩ := s.settle_relay q c relay
    -- the relay has ended, or stays where it is
    have hnext : relay.phase = .ended ∨ relay.phase = c.relay.phase ∧ relay.rx = c.relay.rx := by
      rcases hphase with hended | ⟨-, hwaiting⟩
      · left
        by_contra hne
        exact Relay.phase_ne_ended_of_step hrelay hne hended
      · refine waits_of_step hwaiting hdata ?_ hrelay
        rcases ha with ⟨e, he, hleaving⟩ | hunread
        · left
          cases hc.symm.trans he
          refine hwaiting.resolve_right fun ⟨b, bs, hsend⟩ => hleaving ?_
          rw [Relay.Running, hsend]
          exact ⟨(fun hc => by cases hc), (fun hc => by cases hc)⟩
        · right
          rintro k rfl
          exact hunread rfl
    constructor
    · refine ⟨h.waits, _, hafter, ?_, ?_⟩
      · rw [settle_of_waits h.waits]
        exact hregistered
      · rw [hsettle]
        rcases hnext with hended | ⟨hsame, hrx⟩
        · exact Or.inl hended
        · change relay.phase = .ended ∨ QUEUE_SIZE ≤ relay.rx.length ∧
            (relay.phase = .closing ∨ ∃ b bs, relay.phase = .clientSend (b :: bs))
          rw [hsame, hrx]
          exact hphase
    · rintro ⟨e, he, hleaving⟩
      cases hc.symm.trans he
      refine ⟨_, hafter, ?_⟩
      rw [hsettle]
      intro hrunning
      rcases hnext with hended | ⟨hsame, -⟩
      · exact hrunning.2 hended
      · apply hleaving
        rw [Relay.Running, ← hsame]
        exact hrunning
  · have hafter : (s.put p (s.settle p d relay)).conn q =
        some { c with relay := { c.relay with wTx := (s.settle p d relay).relay.wTx } } := by
      rw [conn_put, if_neg hp, others, hc]
      rfl
    refine ⟨⟨h.waits, _, hafter, hregistered, hphase⟩, ?_⟩
    rintro ⟨e, he, hleaving⟩
    cases hc.symm.trans he
    exact ⟨_, hafter, hleaving⟩

theorem HeldUp.step {q : UInt16} (h : s.HeldUp q) {a : Action} (ha : s.Leaving q ∨ Unread q a)
    (hst : s.step codec a = some t) :
    t.HeldUp q ∧ s.Idles t ∧ (s.Leaving q → t.Leaving q) := by
  obtain ⟨packet, hroutes, hport⟩ : ∃ packet, s.reader.routes = some packet ∧
      RouterLock.routePort packet = q := by
    have hwaits := h.waits
    rw [waitsFor, Bool.and_eq_true, Option.any_eq_true] at hwaits
    obtain ⟨-, packet, hroutes, hport⟩ := hwaits
    exact ⟨packet, hroutes, beq_iff_eq.mp hport⟩
  cases a with
  | poll early =>
    -- the loop is behind a call of `from_reader`
    obtain ⟨reader, hreader, -⟩ := Option.map_eq_some_iff.mp hst
    unfold TransferLoop.routes at hroutes
    unfold TransferLoop.step at hreader
    split at hroutes
    next htask =>
      simp only [htask] at hreader
      cases hreader
    next => cases hroutes
  | complete =>
    obtain ⟨reader, hreader, rfl⟩ := Option.map_eq_some_iff.mp hst
    obtain ⟨polls, -, rfl⟩ := Option.map_eq_some_iff.mp hreader
    exact ⟨⟨h.waits, h.conn⟩, ⟨rfl, fun _ => rfl⟩, id⟩
  | advance acked =>
    obtain ⟨reader, -, hst⟩ := Option.bind_eq_some_iff.mp hst
    obtain ⟨c, hc, hregistered, hphase⟩ := h.conn
    simp only [hroutes, route, hport, hc, hregistered, Bool.true_eq_false, if_false] at hst
    split_ifs at hst with hended
    -- there is no room on the queue
    have hfull : QUEUE_SIZE ≤ c.relay.rx.length := (hphase.resolve_left hended).1
    simp only [Relay.step, if_neg (Nat.not_lt.mpr hfull), Option.some.injEq] at hst
    subst hst
    refine ⟨⟨?_, c, hc, hregistered, hphase⟩, ⟨rfl, fun _ => rfl⟩, id⟩
    have hwaits := h.waits
    rw [waitsFor, Bool.and_eq_true] at hwaits ⊢
    exact ⟨rfl, hwaits.2⟩
  | relay p action =>
    obtain ⟨hnext, hleaving⟩ := h.relay ha hst
    have hqueued := queuedFor_relay hst
    obtain ⟨-, d, relay, -, -, rfl⟩ := relay_step hst
    exact ⟨hnext, ⟨rfl, hqueued⟩, hleaving⟩

/-- A client that takes nothing holds up all connections of its device, and a connection
that ends under the waiting loop does so for as long as the loop lives: once it waits
for the queue, no packet of the device gets to any queue, whatever the others do. -/
theorem held_up_device {q : UInt16} (h : s.HeldUp q) {as : List Action}
    (ha : s.Leaving q ∨ ∀ a ∈ as, Unread q a) :
    StepSystem.EveryState (step codec) s.Idles s as := by
  let Inv (t : DeviceRelays) : Prop := t.HeldUp q ∧ s.Idles t
  have hstart : Inv s := ⟨h, rfl, fun _ => rfl⟩
  have hnext {t u : DeviceRelays} {a : Action} (ht : Inv t) (ha : t.Leaving q ∨ Unread q a)
      (hst : t.step codec a = some u) : Inv u ∧ (t.Leaving q → u.Leaving q) := by
    obtain ⟨hheld, hidles, hleaving⟩ := ht.1.step ha hst
    exact ⟨⟨hheld, hidles.loop.trans ht.2.loop,
      fun port => (hidles.queued port).trans (ht.2.queued port)⟩, hleaving⟩
  rcases ha with hleaving | hunread
  · have hrun : StepSystem.EveryState (step codec) (fun t => Inv t ∧ t.Leaving q) s as := by
      refine StepSystem.everyState_of_everyStep (fun t a u ht _ hst => ?_) ⟨hstart, hleaving⟩
        (StepSystem.everyStep_true s as)
      obtain ⟨hinv, hleaves⟩ := hnext ht.1 (Or.inl ht.2) hst
      exact ⟨hinv, hleaves ht.2⟩
    exact hrun.mono fun t ht => ht.1.2
  · have hsteps : StepSystem.EveryStep (step codec) (fun _ a => Unread q a) s as :=
      StepSystem.everyStep_of_forall fun a ha _ => hunread a ha
    have hrun : StepSystem.EveryState (step codec) Inv s as :=
      StepSystem.everyState_of_everyStep (fun _ _ _ ht ha hst => (hnext ht (Or.inr ha) hst).1)
        hstart hsteps
    exact hrun.mono fun t ht => ht.2

/-- The client of port 1 has left 256 packets on the queue, and the loop has another. -/
def fullQueue : DeviceRelays where
  reader := { TransferLoop.start tcpWire.toTcpCodec [] with
    task := .returned (.ok DownloadWire.byteFor1) }
  conns := twoRelays.conns.insert 1 ⟨{ Relay.start (.newFrom 62078 1 1 1 512 1)
    (List.replicate QUEUE_SIZE ⟨DownloadWire.byteFor1, 0⟩) [] 0 0 with
      phase := .clientSend [7] }, true⟩
  wTx := []
  inRoute := true

/-- The stream of the client fails, and another client writes. -/
theorem held_up_device_one : StepSystem.EveryState (step tcpWire.toTcpCodec) fullQueue.Idles
    fullQueue [.relay 2 (.clientWrites [1]), .relay 1 .clientSendFails, .relay 2 (.pollClient 1),
      .advance 0] := by
  have hheld : fullQueue.HeldUp 1 :=
    ⟨by decide, _, rfl, rfl, Or.inr ⟨Nat.le_of_eq List.length_replicate.symm,
      Or.inr ⟨7, [], rfl⟩⟩⟩
  refine held_up_device hheld (Or.inr fun a ha => ?_)
  repeat
    rcases List.mem_cons.mp ha with rfl | ha
    · exact trivial
  cases ha

end DeviceRelays

end Rusbmux
