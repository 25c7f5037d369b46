import Rusbmux.Hotplug
import Mathlib.Data.List.Induction

/-! The heartbeat task of a network device, from src/device/network.rs. -/
namespace Rusbmux

/-- How `get_marco` and `send_polo` end in one round of the loop. -/
structure HeartbeatRound where
  marco : Except String UInt64
  polo : Except String Unit
  deriving Repr

namespace HeartbeatRound

def MarcoFails (r : HeartbeatRound) : Prop := r.marco.isOk = false

def PoloFails (r : HeartbeatRound) : Prop := r.polo.isOk = false

/-- The round contains a failed operation. -/
def Fails (r : HeartbeatRound) : Prop := r.MarcoFails ∨ r.PoloFails

end HeartbeatRound

/-- The task, and what it has done: `notified` on the channel for `hb_failed`,
`cancelled` the device. -/
structure Heartbeat where
  interval : UInt64
  failed : Bool
  notified : Bool
  cancelled : Bool
  returned : Bool
  daemon : HotplugDaemon

namespace Heartbeat

variable (find : Registry → (Device → Bool) → Option ℕ)
variable (shutdown : ℕ → Except RusbmuxError Unit)
variable (id : ℕ)

def start (daemon : HotplugDaemon) : Heartbeat := ⟨15, false, false, false, false, daemon⟩

/-- The device is closed, whatever becomes of its removal, and the task returns. -/
def close (s : Heartbeat) : Heartbeat :=
  { s with
    notified := true
    cancelled := true
    returned := true
    daemon := (s.daemon.removeDevice find shutdown id).2 }

def getMarco (s : Heartbeat) : Except String UInt64 → Heartbeat
  | .ok i => { s with failed := false, interval := i+5 }
  | .error _ => if s.failed then s.close find shutdown id else { s with failed := true }

def sendPolo (s : Heartbeat) : Except String Unit → Heartbeat
  -- a polo that is sent leaves `failed` as it is
  | .ok _ => s
  | .error _ => if s.failed then s.close find shutdown id else { s with failed := true }

/-- The body of the loop. -/
def round (s : Heartbeat) (r : HeartbeatRound) : Heartbeat :=
  let s := s.getMarco find shutdown id r.marco
  if s.returned then s else s.sendPolo find shutdown id r.polo

/-- The loop, for as long as these rounds. -/
def loop (s : Heartbeat) : List HeartbeatRound → Heartbeat
  | [] => s
  | r :: rounds =>
    let s := s.round find shutdown id r
    if s.returned then s else loop s rounds

/-- Cancelled, and out of the connected devices. This does not cover a device that is
inserted only after its task has ended. -/
structure Closed (s : Heartbeat) : Prop where
  cancelled : s.cancelled = true
  removed : s.daemon.devices.get id = none

/-- Nothing has happened to the device. -/
structure Kept (daemon : HotplugDaemon) (s : Heartbeat) : Prop where
  cancelled : s.cancelled = false
  devices : s.daemon = daemon

/-- Two failed rounds in a row close the device by the end of the second, and
rounds that succeed leave it alone. -/
structure Detects (daemon : HotplugDaemon) (rounds : List HeartbeatRound) : Prop where
  closes : ∀ n r q, rounds[n]? = some r → rounds[n+1]? = some q → r.Fails → q.Fails →
    Closed id ((start daemon).loop find shutdown id (rounds.take (n+2)))
  keeps : ∀ n, (∀ r ∈ rounds.take n, ¬ r.Fails) →
    Kept daemon ((start daemon).loop find shutdown id (rounds.take n))

/-- In round `n` `get_marco` fails, and so does an operation of the round before
it or the `send_polo` behind it. -/
def Exposes (rounds : List HeartbeatRound) (n : ℕ) : Prop :=
  ∃ r, rounds[n]? = some r ∧ r.MarcoFails ∧
    (r.PoloFails ∨ ∃ m p, n = m+1 ∧ rounds[m]? = some p ∧ p.Fails)

/-- Two failed rounds in a row come only with a round that exposes them. -/
def Exposed (rounds : List HeartbeatRound) : Prop :=
  ∀ n r q, rounds[n]? = some r → rounds[n+1]? = some q → r.Fails → q.Fails →
    ∃ m ≤ n+1, Exposes rounds m

variable {find : Registry → (Device → Bool) → Option ℕ}
variable {shutdown : ℕ → Except RusbmuxError Unit} {id : ℕ}

theorem removed_removeDevice (daemon : HotplugDaemon) (id : ℕ) :
    (daemon.removeDevice find shutdown id).2.devices.get id = none := by
  have hfound (d : HotplugDaemon) (event : ℕ → DeviceEvent) (found : Option ℕ) :
      (d.sendFound event found).devices = d.devices := by
    cases found <;> rfl
  unfold HotplugDaemon.removeDevice
  cases hdevice : daemon.devices.get id with
  | none => exact hdevice
  | some device =>
    have hremoved := KeyTable.get_remove_self daemon.devices id
    cases shutdown id with
    | error e => exact hremoved
    | ok _ =>
      dsimp only
      split_ifs
      · rw [hfound]
        exact hremoved
      · exact hremoved
      · exact hremoved

theorem closed_close (s : Heartbeat) : Closed id (s.close find shutdown id) :=
  ⟨rfl, removed_removeDevice s.daemon id⟩

theorem loop_append (s : Heartbeat) (hs : s.returned = false) (rounds : List HeartbeatRound)
    (r : HeartbeatRound) : s.loop find shutdown id (rounds ++ [r]) =
      if (s.loop find shutdown id rounds).returned then s.loop find shutdown id rounds
      else (s.loop find shutdown id rounds).round find shutdown id r := by
  induction rounds generalizing s with
  | nil => simp only [List.nil_append, loop, ite_self, hs, Bool.false_eq_true, if_false]
  | cons q rounds ih =>
    simp only [List.cons_append, loop]
    by_cases hq : (s.round find shutdown id q).returned
    · simp only [if_pos hq]
    · simp only [if_neg hq]
      exact ih _ (Bool.eq_false_iff.mpr hq)

variable {s : Heartbeat} {r : HeartbeatRound}

/-- The rounds in which the task comes to close the device. -/
theorem round_closes (hs : s.returned = false) (hmarco : r.MarcoFails)
    (h : s.failed = true ∨ r.PoloFails) :
    (s.round find shutdown id r).returned = true ∧
      Closed id (s.round find shutdown id r) := by
  obtain ⟨marco, polo⟩ := r
  cases marco with
  | ok i => cases hmarco
  | error e =>
    cases hf : s.failed with
    | true =>
      have hclose : s.round find shutdown id ⟨.error e, polo⟩ = s.close find shutdown id := by
        simp only [round, getMarco, hf, if_true]
        rfl
      rw [hclose]
      exact ⟨rfl, closed_close s⟩
    | false =>
      have hpolo : polo.isOk = false := h.resolve_left (Bool.eq_false_iff.mp hf)
      cases polo with
      | ok _ => cases hpolo
      | error e =>
        -- the first failure of the round is what the second one goes by
        simp only [round, getMarco, hf, hs, Bool.false_eq_true, if_false, sendPolo, if_true]
        exact ⟨rfl, closed_close _⟩

/-- All other rounds only leave behind whether they failed. -/
theorem round_continues (hs : s.returned = false)
    (h : ¬ (r.MarcoFails ∧ (s.failed = true ∨ r.PoloFails))) :
    (s.round find shutdown id r).returned = false ∧
      (s.round find shutdown id r).cancelled = s.cancelled ∧
      (s.round find shutdown id r).daemon = s.daemon ∧
      ((s.round find shutdown id r).failed = true ↔ r.Fails) := by
  obtain ⟨marco, polo⟩ := r
  cases marco with
  | ok i => cases polo with
    | ok _ =>
      simp only [round, getMarco, hs, Bool.false_eq_true, if_false, sendPolo]
      refine ⟨trivial, trivial, trivial, iff_of_false nofun ?_⟩
      rintro (hmarco | hpolo)
      · cases hmarco
      · cases hpolo
    | error e =>
      -- `failed` was reset, so this is never the second failure
      simp only [round, getMarco, hs, Bool.false_eq_true, if_false, sendPolo]
      exact ⟨trivial, trivial, trivial, iff_of_true trivial (Or.inr rfl)⟩
  | error e =>
    have hf : s.failed = false := by
      cases hf : s.failed with
      | false => rfl
      | true => exact absurd ⟨rfl, Or.inl hf⟩ h
    cases polo with
    | ok _ =>
      simp only [round, getMarco, hf, hs, Bool.false_eq_true, if_false, sendPolo]
      exact ⟨trivial, trivial, trivial, iff_of_true trivial (Or.inl rfl)⟩
    | error e => exact absurd ⟨rfl, Or.inr rfl⟩ h

theorem Exposes.lt {rounds : List HeartbeatRound} {n : ℕ} (h : Exposes rounds n) :
    n < rounds.length := by
  obtain ⟨r, hr, -⟩ := h
  exact (List.getElem?_eq_some_iff.mp hr).1

theorem exposes_take {rounds : List HeartbeatRound} {n k : ℕ} (h : n < k) :
    Exposes (rounds.take k) n ↔ Exposes rounds n := by
  have hget (m : ℕ) (hm : m ≤ n) : (rounds.take k)[m]? = rounds[m]? :=
    List.getElem?_take_of_lt (Nat.lt_of_le_of_lt hm h)
  unfold Exposes
  rw [hget n (Nat.le_refl n)]
  refine exists_congr fun r => and_congr_right fun _ => and_congr_right fun _ =>
    or_congr_right (exists_congr fun m => exists_congr fun p => and_congr_right fun hm => ?_)
  rw [hget m (by omega)]

/-- The last round, if there is one, failed. -/
def LastFails (rounds : List HeartbeatRound) : Prop :=
  ∃ n r, rounds.length = n+1 ∧ rounds[n]? = some r ∧ r.Fails

theorem lastFails_append (rounds : List HeartbeatRound) (r : HeartbeatRound) :
    LastFails (rounds ++ [r]) ↔ r.Fails := by
  have hget : (rounds ++ [r])[rounds.length]? = some r := List.getElem?_concat_length
  constructor
  · rintro ⟨n, q, hlen, hq, hfails⟩
    have hn : n = rounds.length := by
      rw [List.length_append, List.length_singleton] at hlen
      omega
    rw [hn, hget] at hq
    cases hq
    exact hfails
  · intro h
    exact ⟨rounds.length, r, List.length_append, hget, h⟩

theorem exposes_append (rounds : List HeartbeatRound) (r : HeartbeatRound) :
    (∃ n, Exposes (rounds ++ [r]) n) ↔
      (∃ n, Exposes rounds n) ∨ r.MarcoFails ∧ (LastFails rounds ∨ r.PoloFails) := by
  have htake : (rounds ++ [r]).take rounds.length = rounds := List.take_left
  have hold (n : ℕ) (hn : n < rounds.length) : Exposes (rounds ++ [r]) n ↔ Exposes rounds n := by
    rw [← exposes_take hn, htake]
  have hprev (m : ℕ) (hm : rounds.length = m+1) : (rounds ++ [r])[m]? = rounds[m]? :=
    List.getElem?_append_left (by omega)
  have hlast : Exposes (rounds ++ [r]) rounds.length ↔
      r.MarcoFails ∧ (LastFails rounds ∨ r.PoloFails) := by
    constructor
    · rintro ⟨q, hq, hmarco, h⟩
      rw [List.getElem?_concat_length] at hq
      cases hq
      refine ⟨hmarco, h.symm.imp_left ?_⟩
      rintro ⟨m, p, hm, hp, hfails⟩
      rw [hprev m hm] at hp
      exact ⟨m, p, hm, hp, hfails⟩
    · rintro ⟨hmarco, h⟩
      refine ⟨r, List.getElem?_concat_length, hmarco, h.symm.imp_right ?_⟩
      rintro ⟨m, p, hm, hp, hfails⟩
      exact ⟨m, p, hm, (hprev m hm).trans hp, hfails⟩
  constructor
  · rintro ⟨n, hn⟩
    have hlt := hn.lt
    rw [List.length_append, List.length_singleton] at hlt
    rcases Nat.lt_succ_iff_lt_or_eq.mp hlt with hlt | rfl
    · exact Or.inl ⟨n, (hold n hlt).mp hn⟩
    · exact Or.inr (hlast.mp hn)
  · rintro (⟨n, hn⟩ | h)
    · exact ⟨n, (hold n hn.lt).mpr hn⟩
    · exact ⟨rounds.length, hlast.mpr h⟩

/-- What the rounds so far have led to. -/
structure Tracks (id : ℕ) (daemon : HotplugDaemon) (rounds : List HeartbeatRound)
    (s : Heartbeat) : Prop where
  returned : s.returned = true ↔ ∃ n, Exposes rounds n
  closed : s.returned = true → Closed id s
  kept : s.returned = false → Kept daemon s
  failed : s.returned = false → (s.failed = true ↔ LastFails rounds)

theorem tracks_loop (daemon : HotplugDaemon) (rounds : List HeartbeatRound) :
    Tracks id daemon rounds ((start daemon).loop find shutdown id rounds) := by
  induction rounds using List.reverseRecOn with
  | nil =>
    refine ⟨iff_of_false nofun fun ⟨n, hn⟩ => absurd hn.lt (Nat.not_lt_zero n), nofun,
      fun _ => ⟨rfl, rfl⟩, fun _ => iff_of_false nofun fun ⟨n, r, hlen, _⟩ => ?_⟩
    exact absurd hlen (Nat.succ_ne_zero n).symm
  | append_singleton rounds r ih =>
    rw [loop_append _ rfl]
    split_ifs with hreturned
    · -- the loop is over, and the round comes to nothing
      refine ⟨?_, ih.closed, fun h => ?_, fun h => ?_⟩
      · rw [exposes_append]
        exact iff_of_true hreturned (Or.inl (ih.returned.mp hreturned))
      · exact absurd hreturned (Bool.eq_false_iff.mp h)
      · exact absurd hreturned (Bool.eq_false_iff.mp h)
    · have hreturned := Bool.eq_false_iff.mpr hreturned
      have hnone : ¬ ∃ n, Exposes rounds n := by
        rw [← ih.returned, hreturned]
        nofun
      by_cases hcloses : r.MarcoFails ∧ (LastFails rounds ∨ r.PoloFails)
      · obtain ⟨hret, hclosed⟩ := round_closes hreturned hcloses.1
          (hcloses.2.imp_left (ih.failed hreturned).mpr)
        refine ⟨?_, fun _ => hclosed, fun h => ?_, fun h => ?_⟩
        · rw [exposes_append]
          exact iff_of_true hret (Or.inr hcloses)
        · exact absurd hret (Bool.eq_false_iff.mp h)
        · exact absurd hret (Bool.eq_false_iff.mp h)
      · have hnot := hcloses
        rw [← ih.failed hreturned] at hnot
        obtain ⟨hret, hcancelled, hdaemon, hfailed⟩ := round_continues hreturned hnot
        have hkept := ih.kept hreturned
        refine ⟨?_, fun h => ?_, fun _ => ?_, fun _ => ?_⟩
        · rw [exposes_append, hret]
          exact iff_of_false nofun fun h => h.elim hnone hcloses
        · exact absurd h (Bool.eq_false_iff.mp hret)
        · exact ⟨hcancelled.trans hkept.cancelled, hdaemon.trans hkept.devices⟩
        · rw [hfailed, lastFails_append]

/-- For every sequence of rounds: the heartbeat detects failures exactly if two
failed rounds in a row come only with a marco that fails next to another
failure. -/
theorem detects_iff (find : Registry → (Device → Bool) → Option ℕ)
    (shutdown : ℕ → Except RusbmuxError Unit) (id : ℕ) (daemon : HotplugDaemon)
    (rounds : List HeartbeatRound) :
    Detects find shutdown id daemon rounds ↔ Exposed rounds := by
  have htracks (n : ℕ) : Tracks id daemon (rounds.take n)
      ((start daemon).loop find shutdown id (rounds.take n)) := tracks_loop daemon _
  constructor
  · intro h n r q hr hq hrf hqf
    have hclosed := h.closes n r q hr hq hrf hqf
    have hreturned : ((start daemon).loop find shutdown id (rounds.take (n+2))).returned =
        true := by
      by_contra hnot
      have hkept := (htracks (n+2)).kept (Bool.eq_false_iff.mpr hnot)
      exact Bool.noConfusion (hkept.cancelled.symm.trans hclosed.cancelled)
    obtain ⟨m, hm⟩ := (htracks (n+2)).returned.mp hreturned
    have hlt := hm.lt
    rw [List.length_take] at hlt
    have hle : m ≤ n+1 := by omega
    exact ⟨m, hle, (exposes_take (Nat.lt_succ_of_le hle)).mp hm⟩
  · intro h
    constructor
    · intro n r q hr hq hrf hqf
      obtain ⟨m, hle, hm⟩ := h n r q hr hq hrf hqf
      apply (htracks (n+2)).closed
      exact (htracks (n+2)).returned.mpr ⟨m, (exposes_take (Nat.lt_succ_of_le hle)).mpr hm⟩
    · intro n hn
      apply (htracks n).kept
      rw [Bool.eq_false_iff]
      intro hreturned
      obtain ⟨m, r, hr, hmarco, -⟩ := (htracks n).returned.mp hreturned
      exact hn r (List.mem_of_getElem? hr) (Or.inl hmarco)

/-- Every polo fails, behind a marco that resets the flag: the device stays. -/
theorem failingPolos_not_detected : ¬ ∀ find shutdown id daemon rounds,
    Detects find shutdown id daemon rounds := by
  intro h
  have hpolos := h (fun _ _ => none) (fun _ => .ok ()) 0 ⟨true, KeyTable.empty, []⟩
    [⟨.ok 10, .error "broken pipe"⟩, ⟨.ok 10, .error "broken pipe"⟩]
  have hclosed := hpolos.closes 0 _ _ rfl rfl (Or.inr rfl) (Or.inr rfl)
  exact Bool.noConfusion hclosed.cancelled

end Heartbeat
end Rusbmux
