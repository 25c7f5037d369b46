import Rusbmux.Broadcast
import Rusbmux.ListenWire

/-! The clients of src/handler/listen.rs on the channel of the hotplug events,
which keeps only the last of them. -/
namespace Rusbmux

/-- `broadcast::channel::<DeviceEvent>(32)` in src/watcher/mod.rs. -/
def EVENT_CHANNEL_SIZE : ℕ := 32

/-- A call of `handle_listen`: where it is, its receiver, and whether it has
returned. -/
structure ListenSession where
  phase : ListenPhase
  next : ℕ
  ended : Bool
  deriving DecidableEq, Repr

namespace ListenSession

/-- The session as a client with all events that its receiver has not returned. -/
def listener (events : List DeviceEvent) (c : ListenSession) : Listener :=
  ⟨c.phase, events.drop c.next⟩

variable (devices : Registry) (events : List DeviceEvent) (c : ListenSession)

/-- A step of the session with the message that it writes. -/
def step : Listener.Action → Option (ListenSession × Option DeviceEvent)
  | .recv => match c.ended, c.phase, Broadcast.recv EVENT_CHANNEL_SIZE events c.next with
    | false, .listening view, some (.value e, next) =>
      some (⟨.listening (Listener.tell devices view e), next, false⟩,
        (c.listener events).writes devices .recv)
    -- `while let Ok(event)` ends with the first error, and the receiver is dropped
    | false, .listening _, some (.lagged _, _) => some ({ c with ended := true }, none)
    | _, _, _ => none
  | a => if c.ended then none else ((c.listener events).step devices a).map fun l =>
    ({ c with phase := l.phase }, (c.listener events).writes devices a)

end ListenSession

/-- The daemon, all events that it has sent so far, and the sessions with what
each client has been sent. -/
structure ListenLag where
  daemon : Daemon
  events : List DeviceEvent
  sessions : KeyTable ℕ ListenSession
  sent : ℕ → List DeviceEvent

namespace ListenLag

def step (s : ListenLag) : Watchers.Action → Option ListenLag
  | .daemon reads a => (s.daemon.stepRead reads a).map fun r =>
    { s with daemon := r.1, events := s.events ++ r.2.toList }
  | .subscribe l => match s.sessions.get l with
    | some _ => none
    | none => some { s with
        sessions := s.sessions.insert l ⟨.subscribed, s.events.length, false⟩ }
  | .listener l a =>
    ((s.sessions.get l).bind fun c => c.step s.daemon.devices s.events a).map fun r => { s with
      sessions := s.sessions.insert l r.1
      sent := fun k => if k = l then s.sent k ++ r.2.toList else s.sent k }

def start : ListenLag := ⟨.start, [], .empty, fun _ => []⟩

/-- The same daemon, the same messages and the same events to come, on a channel
that keeps all of them. -/
structure Refines (s : ListenLag) (w : ListenWire) : Prop where
  daemon : w.watchers.daemon = s.daemon
  sent : w.sent = s.sent
  listeners : ∀ l, w.watchers.listeners.get l =
    (s.sessions.get l).map fun c => c.listener s.events

/-- No client finds out about the bound of the channel but by the end of its
session, and then it was behind by more than that. -/
structure Reliable (s : ListenLag) : Prop where
  refines : ∃ as w, StepSystem.after ListenWire.step .start as = some w ∧ s.Refines w
  ended : ∀ l c, s.sessions.get l = some c → c.ended = true →
    c.next+EVENT_CHANNEL_SIZE < s.events.length

end ListenLag

/-- Only a receive takes an event off the queue. -/
theorem Listener.queue_of_step {devices : Registry} {c c' : Listener} {a : Listener.Action}
    (ha : a ≠ .recv) (h : c.step devices a = some c') : c'.queue = c.queue := by
  obtain ⟨phase, queue⟩ := c
  cases a with
  | beginSnapshot =>
    cases phase with
    | subscribed =>
      cases h
      rfl
    | snapshot left view | listening view => cases h
  | visit id reads =>
    cases phase with
    | snapshot left view =>
      obtain ⟨-, h⟩ := Option.ite_none_right_eq_some.mp h
      cases h
      rfl
    | subscribed | listening view => cases h
  | endSnapshot =>
    cases phase with
    | snapshot left view =>
      obtain ⟨-, h⟩ := Option.ite_none_right_eq_some.mp h
      cases h
      rfl
    | subscribed | listening view => cases h
  | recv => exact absurd rfl ha

namespace ListenSession

variable {devices : Registry} {events : List DeviceEvent} {c c' : ListenSession}
  {a : Listener.Action} {e : Option DeviceEvent}

theorem listener_push (h : c.next ≤ events.length) :
    c.listener (events ++ e.toList) = (c.listener events).push e := by
  rw [listener, List.drop_append_of_le_length h]
  rfl

/-- A step of a session that goes on is one of the client with all its events. -/
structure Goes (devices : Registry) (events : List DeviceEvent) (c : ListenSession)
    (a : Listener.Action) (c' : ListenSession) (e : Option DeviceEvent) : Prop where
  step : (c.listener events).step devices a = some (c'.listener events)
  writes : e = (c.listener events).writes devices a
  next : c.next ≤ events.length → c'.next ≤ events.length
  ended : c'.ended = false

/-- A session that ends is behind by more than the channel keeps. -/
structure Lags (events : List DeviceEvent) (c c' : ListenSession) (e : Option DeviceEvent) :
    Prop where
  eq : c' = { c with ended := true }
  writes : e = none
  behind : c.next+EVENT_CHANNEL_SIZE < events.length

theorem goes_or_lags (h : c.step devices events a = some (c', e)) :
    c.Goes devices events a c' e ∨ c.Lags events c' e := by
  have hother (ha : a ≠ .recv) (hstep : (if c.ended then none else
      ((c.listener events).step devices a).map fun l =>
        (({ c with phase := l.phase } : ListenSession), (c.listener events).writes devices a)) =
          some (c', e)) : c.Goes devices events a c' e := by
    split_ifs at hstep with hended
    obtain ⟨l, hl, heq⟩ := Option.map_eq_some_iff.mp hstep
    cases heq
    refine ⟨?_, rfl, id, Bool.eq_false_iff.mpr hended⟩
    have hqueue : l.queue = events.drop c.next := Listener.queue_of_step ha hl
    rw [hl, listener, ← hqueue]
  cases a with
  | beginSnapshot => exact .inl (hother (fun hc => by cases hc) h)
  | visit id reads => exact .inl (hother (fun hc => by cases hc) h)
  | endSnapshot => exact .inl (hother (fun hc => by cases hc) h)
  | recv =>
    simp only [ListenSession.step] at h
    split at h
    next view ev next hended hphase hrecv =>
      cases h
      have hdrop := Broadcast.drop_of_recv hrecv
      have hlt := Broadcast.lt_of_recv hrecv
      have hnext := Broadcast.next_of_recv hrecv
      refine .inl ⟨?_, rfl, fun _ => ?_, rfl⟩
      · rw [listener, hdrop, hphase]
        rfl
      · rw [hnext]
        exact hlt
    next view missed next hended hphase hrecv =>
      cases h
      exact .inr ⟨rfl, rfl, Broadcast.recv_lagged_iff.mp ⟨missed, next, hrecv⟩⟩
    next => cases h

end ListenSession

namespace ListenLag

variable {s t : ListenLag} {w : ListenWire}

/-- No session is ahead of the channel, and one that has ended was behind. -/
def Behind (s : ListenLag) : Prop := ∀ l c, s.sessions.get l = some c →
  c.next ≤ s.events.length ∧ (c.ended = true → c.next+EVENT_CHANNEL_SIZE < s.events.length)

theorem Refines.daemonStep {reads : SerialReads} {a : Daemon.Action} (h : s.Refines w)
    (hb : s.Behind) (hst : s.step (.daemon reads a) = some t) :
    ∃ w', w.step (.daemon reads a) = some w' ∧ t.Refines w' ∧ t.Behind := by
  obtain ⟨⟨d, e⟩, hd, rfl⟩ := Option.map_eq_some_iff.mp hst
  refine ⟨⟨⟨d, w.watchers.listeners.map (·.push e)⟩, w.sent⟩, ?_, ⟨rfl, h.sent, fun l => ?_⟩,
    fun l c hc => ?_⟩
  · simp only [ListenWire.step, Watchers.step, h.daemon, hd, Option.map_some, ListenWire.written,
      List.append_nil]
  · rw [KeyTable.get_map, h.listeners, Option.map_map]
    cases hget : s.sessions.get l with
    | none => rfl
    | some c => exact congrArg some (ListenSession.listener_push (hb l c hget).1).symm
  · obtain ⟨hle, hended⟩ := hb l c hc
    have hlen : s.events.length ≤ (s.events ++ e.toList).length :=
      (List.sublist_append_left _ _).length_le
    exact ⟨Nat.le_trans hle hlen, fun hc => Nat.lt_of_lt_of_le (hended hc) hlen⟩

theorem Refines.subscribe {l : ℕ} (h : s.Refines w) (hb : s.Behind)
    (hst : s.step (.subscribe l) = some t) :
    ∃ w', w.step (.subscribe l) = some w' ∧ t.Refines w' ∧ t.Behind := by
  simp only [step] at hst
  split at hst
  next => cases hst
  next hget =>
    cases hst
    have hnone : w.watchers.listeners.get l = none := by
      rw [h.listeners, hget]
      rfl
    refine ⟨⟨{ w.watchers with listeners := w.watchers.listeners.insert l ⟨.subscribed, []⟩ },
      w.sent⟩, ?_, ⟨h.daemon, h.sent, fun k => ?_⟩, fun k c hc => ?_⟩
    · simp only [ListenWire.step, Watchers.step, hnone, Option.map_some, ListenWire.written,
        List.append_nil]
    · rw [KeyTable.get_insert, KeyTable.get_insert]
      split_ifs with hk
      · have hempty : s.events.drop s.events.length = [] := List.drop_length
        rw [Option.map_some, ListenSession.listener, hempty]
      · exact h.listeners k
    · rw [KeyTable.get_insert] at hc
      split_ifs at hc with hk
      · cases hc
        exact ⟨Nat.le_refl _, fun hended => by cases hended⟩
      · exact hb k c hc

/-- A step of a session is one of its client, or the end of the session. -/
theorem Refines.listenerStep {l : ℕ} {a : Listener.Action} (h : s.Refines w) (hb : s.Behind)
    (hst : s.step (.listener l a) = some t) :
    (t.Refines w ∨ ∃ w', w.step (.listener l a) = some w' ∧ t.Refines w') ∧ t.Behind := by
  obtain ⟨⟨c', e⟩, hr, rfl⟩ := Option.map_eq_some_iff.mp hst
  obtain ⟨c, hget, hc⟩ := Option.bind_eq_some_iff.mp hr
  obtain ⟨hle, -⟩ := hb l c hget
  have hclient : w.watchers.listeners.get l = some (c.listener s.events) := by
    rw [h.listeners, hget]
    rfl
  rcases ListenSession.goes_or_lags hc with hgoes | hlags
  · -- the client of the unbounded channel takes the same step
    refine ⟨.inr ⟨⟨{ w.watchers with
      listeners := w.watchers.listeners.insert l (c'.listener s.events) },
      fun k => w.sent k ++ w.written k (.listener l a)⟩, ?_, h.daemon, ?_, fun k => ?_⟩, ?_⟩
    · simp only [ListenWire.step, Watchers.step, hclient, Option.bind_some, h.daemon, hgoes.step,
        Option.map_some]
    · funext k
      simp only [ListenWire.written, h.sent, h.daemon]
      split_ifs with hlk hkl hkl
      · rw [← hlk, hclient, Option.bind_some, hgoes.writes]
      · exact absurd hlk.symm hkl
      · exact absurd hkl.symm hlk
      · exact List.append_nil _
    · rw [KeyTable.get_insert, KeyTable.get_insert]
      split_ifs
      · rfl
      · exact h.listeners k
    · intro k d hd
      rw [KeyTable.get_insert] at hd
      split_ifs at hd
      · cases hd
        refine ⟨hgoes.next hle, fun hended => ?_⟩
        rw [hgoes.ended] at hended
        cases hended
      · exact hb k d hd
  · have heq := hlags.eq
    have hwrites := hlags.writes
    subst heq hwrites
    -- nothing changes but that the session has ended
    refine ⟨.inl ⟨h.daemon, ?_, fun k => ?_⟩, fun k d hd => ?_⟩
    · rw [h.sent]
      funext k
      by_cases hk : k = l
      · exact ((if_pos hk).trans (List.append_nil _)).symm
      · exact (if_neg hk).symm
    · rw [KeyTable.get_insert]
      split_ifs with hk
      · rw [hk, hclient]
        rfl
      · exact h.listeners k
    · rw [KeyTable.get_insert] at hd
      split_ifs at hd
      · cases hd
        exact ⟨hle, fun _ => hlags.behind⟩
      · exact hb k d hd

theorem Refines.step {a : Watchers.Action} (h : s.Refines w) (hb : s.Behind)
    (hst : s.step a = some t) :
    (t.Refines w ∨ ∃ b w', w.step b = some w' ∧ t.Refines w') ∧ t.Behind := by
  cases a with
  | daemon reads a =>
    obtain ⟨w', hw, hr, ht⟩ := h.daemonStep hb hst
    exact ⟨.inr ⟨_, w', hw, hr⟩, ht⟩
  | subscribe l =>
    obtain ⟨w', hw, hr, ht⟩ := h.subscribe hb hst
    exact ⟨.inr ⟨_, w', hw, hr⟩, ht⟩
  | listener l a =>
    obtain ⟨hsame | ⟨w', hw, hr⟩, ht⟩ := h.listenerStep hb hst
    · exact ⟨.inl hsame, ht⟩
    · exact ⟨.inr ⟨_, w', hw, hr⟩, ht⟩

/-- In every run every client is sent just what it would be sent if its channel
kept all events, until its session ends; and a session ends early only when it is
more than 32 events behind. -/
theorem listen_reliable (as : List Watchers.Action) :
    StepSystem.EveryState step Reliable start as := by
  let Mirrors (s : ListenLag) (w : ListenWire) : Prop := s.Refines w ∧ s.Behind
  have hstart : Mirrors start .start := ⟨⟨rfl, rfl, fun _ => rfl⟩, fun _ _ hc => by cases hc⟩
  have hstep (s : ListenLag) (a : Watchers.Action) (t : ListenLag) (w : ListenWire)
      (h : Mirrors s w) (hst : s.step a = some t) :
      Mirrors t w ∨ ∃ b w', w.step b = some w' ∧ Mirrors t w' := by
    obtain ⟨hsame | ⟨b, w', hw, hr⟩, ht⟩ := h.1.step h.2 hst
    · exact .inl ⟨hsame, ht⟩
    · exact .inr ⟨b, w', hw, hr, ht⟩
  have hrun := StepSystem.everyState_simulated hstep hstart as
  exact hrun.mono fun s ⟨bs, w, hw, hr, hb⟩ => ⟨⟨bs, w, hw, hr⟩, fun l c hc => (hb l c hc).2⟩

end ListenLag

end Rusbmux
