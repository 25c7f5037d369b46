import Mathlib.Data.List.Basic
import Mathlib.Tactic.TypeStar

/-! Messages over a channel whose packets have a bounded size: transfers are cut
into full packets, and a packet below the bound ends a message. -/
namespace ShortPackets

variable {β : Type*}

/-- The packets of a transfer: full ones, and what remains. A transfer without
data is one empty packet. -/
def packets (m : ℕ) (data : List β) : List (List β) :=
  if m = 0 ∨ data.length ≤ m then [data] else data.take m :: packets m (data.drop m)
termination_by data.length
decreasing_by
  rw [List.length_drop]
  omega

/-- The messages that end within the packets, and what has come of the next one. -/
def assemble (m : ℕ) : List β → List (List β) → List (List β) × List β
  | rest, [] => ([], rest)
  | rest, p :: ps =>
    if p.length < m then ((rest ++ p) :: (assemble m [] ps).1, (assemble m [] ps).2)
    else assemble m (rest ++ p) ps

/-- What a receiver makes of transfers. -/
def received (m : ℕ) (transfers : List (List β)) : List (List β) × List β :=
  assemble m [] (transfers.flatMap (packets m))

/-- A message in one transfer. A sender that has counted `c` bytes before it puts
an empty transfer behind it if the sum fills packets. -/
def endedAfter (m c : ℕ) (message : List β) : List (List β) :=
  if m ∣ c+message.length then [message, []] else [message]

/-- A message in one transfer, and an empty one if it fills its packets. -/
def ended (m : ℕ) (message : List β) : List (List β) := endedAfter m 0 message

/-- The transfers of messages, where `c` bytes are counted before the first one. -/
def sentAfter (m c : ℕ) : List (List β) → List (List β)
  | [] => []
  | first :: msgs => endedAfter m c first ++ msgs.flatMap (ended m)

variable {m : ℕ}

theorem sentAfter_append_singleton (c : ℕ) (msgs : List (List β)) (message : List β) :
    sentAfter m c (msgs ++ [message]) =
      sentAfter m c msgs ++ endedAfter m (if msgs = [] then c else 0) message := by
  cases msgs with
  | nil =>
    rw [List.nil_append, sentAfter, sentAfter, List.flatMap_nil, List.append_nil, if_pos rfl]
    rfl
  | cons first msgs =>
    rw [List.cons_append, sentAfter, sentAfter, List.flatMap_append, List.flatMap_singleton,
      if_neg (List.cons_ne_nil first msgs), List.append_assoc]
    rfl

theorem assemble_append (rest : List β) (ps qs : List (List β)) :
    assemble m rest (ps ++ qs) =
      ((assemble m rest ps).1 ++ (assemble m (assemble m rest ps).2 qs).1,
        (assemble m (assemble m rest ps).2 qs).2) := by
  induction ps generalizing rest with
  | nil => rfl
  | cons p ps ih =>
    rw [List.cons_append, assemble, assemble]
    split_ifs with hp
    · rw [ih []]
      rfl
    · exact ih (rest ++ p)

/-- A transfer goes on with a message, and ends it unless its packets are full. -/
theorem assemble_packets (hm : 0 < m) (rest data : List β) :
    assemble m rest (packets m data) =
      if m ∣ data.length ∧ data ≠ [] then ([], rest ++ data) else ([rest ++ data], []) := by
  induction data using packets.induct m generalizing rest with
  | case1 data hle =>
    rw [packets, if_pos hle, assemble]
    by_cases hlt : data.length < m
    · have hnot : ¬(m ∣ data.length ∧ data ≠ []) := by
        intro ⟨hd, hne⟩
        have hmle := Nat.le_of_dvd (List.length_pos_iff.mpr hne) hd
        omega
      rw [if_pos hlt, if_neg hnot]
      rfl
    · have hfull : data.length = m := by omega
      have hne : data ≠ [] := List.length_pos_iff.mp (by omega)
      rw [if_neg hlt, if_pos ⟨⟨1, by omega⟩, hne⟩]
      rfl
  | case2 data hcut ih =>
    have htake : (data.take m).length = m := by
      rw [List.length_take]
      omega
    have hdvd : m ∣ (data.drop m).length ↔ m ∣ data.length := by
      rw [List.length_drop]
      exact (Nat.dvd_sub_iff_left (by omega) (Nat.dvd_refl m))
    have hne : data.drop m ≠ [] := by
      apply List.length_pos_iff.mp
      rw [List.length_drop]
      omega
    have hne' : data ≠ [] := List.length_pos_iff.mp (by omega)
    rw [packets, if_neg hcut, assemble, if_neg (by omega), ih, List.append_assoc,
      List.take_append_drop]
    simp only [hdvd, hne, hne', ne_eq, not_false_eq_true, and_true]

/-- Behind whole messages the receiver starts afresh. -/
theorem received_append {ts us : List (List β)} {msgs : List (List β)}
    (h : received m ts = (msgs, [])) :
    received m (ts ++ us) = (msgs ++ (received m us).1, (received m us).2) := by
  have hts : assemble m [] (ts.flatMap (packets m)) = (msgs, []) := h
  rw [received, List.flatMap_append, assemble_append, hts]
  rfl

/-- A message that does not fill its packets needs nothing behind it. -/
theorem received_singleton (hm : 0 < m) {message : List β} (h : ¬ m ∣ message.length) :
    received m [message] = ([message], []) := by
  rw [received, List.flatMap_singleton, assemble_packets hm, if_neg fun hc => h hc.1]
  rfl

theorem assemble_empty (hm : 0 < m) (rest : List β) :
    assemble m rest (packets m []) = ([rest], []) := by
  rw [assemble_packets hm, if_neg fun hc => hc.2 rfl, List.append_nil]

/-- A message ends what has come before it. -/
theorem assemble_ended (hm : 0 < m) (rest : List β) {message : List β} (hne : message ≠ []) :
    assemble m rest ((ended m message).flatMap (packets m)) = ([rest ++ message], []) := by
  rw [ended, endedAfter, Nat.zero_add]
  split_ifs with h
  · rw [List.flatMap_cons, List.flatMap_singleton, assemble_append, assemble_packets hm,
      if_pos ⟨h, hne⟩, assemble_empty hm]
    rfl
  · rw [List.flatMap_singleton, assemble_packets hm, if_neg fun hc => h hc.1]

/-- The receiver gets the messages, each one apart from the next. -/
theorem received_flatMap_ended (hm : 0 < m) {msgs : List (List β)} (h : ∀ x ∈ msgs, x ≠ []) :
    received m (msgs.flatMap (ended m)) = (msgs, []) := by
  induction msgs with
  | nil => rfl
  | cons x xs ih =>
    have hx : received m (ended m x) = ([x], []) :=
      assemble_ended hm [] (h x List.mem_cons_self)
    rw [List.flatMap_cons, received_append hx, ih fun y hy => h y (List.mem_cons_of_mem x hy)]
    rfl

/-- With `c` bytes counted before the first message, the messages get across
exactly if these bytes do not change what is put behind it. -/
theorem received_endedAfter_iff (hm : 0 < m) {c : ℕ} {first : List β} {msgs : List (List β)}
    (hfirst : first ≠ []) (hmsgs : ∀ x ∈ msgs, x ≠ []) :
    received m (endedAfter m c first ++ msgs.flatMap (ended m)) = (first :: msgs, []) ↔
      (m ∣ c+first.length ↔ m ∣ first.length) := by
  have hrest := received_flatMap_ended hm hmsgs
  by_cases hc : m ∣ c+first.length
  · by_cases hf : m ∣ first.length
    · have hsame : endedAfter m c first = ended m first := by
        rw [ended, endedAfter, endedAfter, if_pos hc, Nat.zero_add, if_pos hf]
      have hreceived : received m (ended m first) = ([first], []) := assemble_ended hm [] hfirst
      rw [hsame, received_append hreceived, hrest]
      exact iff_of_true rfl (iff_of_true hc hf)
    · -- an empty message comes behind the first one
      have hzlp : received m [first, []] = ([first, []], []) := by
        rw [← List.singleton_append, received_append (received_singleton hm hf), received,
          List.flatMap_singleton, assemble_empty hm, List.singleton_append]
      rw [endedAfter, if_pos hc, received_append hzlp, hrest]
      refine iff_of_false ?_ fun hiff => hf (hiff.mp hc)
      intro heq
      have hlen := congrArg (fun r => r.1.length) heq
      simp only [List.length_append, List.length_cons, List.length_nil] at hlen
      omega
  · rw [endedAfter, if_neg hc]
    by_cases hf : m ∣ first.length
    · -- the first message runs into the next one
      refine iff_of_false ?_ fun hiff => hc (hiff.mpr hf)
      intro heq
      have hlen := congrArg (fun r => r.1.length) heq
      rw [received, List.flatMap_append, List.flatMap_singleton, assemble_append,
        assemble_packets hm, if_pos ⟨hf, hfirst⟩, List.nil_append] at hlen
      cases msgs with
      | nil => cases hlen
      | cons x xs =>
        have htail : assemble m [] ((xs.flatMap (ended m)).flatMap (packets m)) = (xs, []) :=
          received_flatMap_ended hm fun y hy => hmsgs y (List.mem_cons_of_mem x hy)
        rw [List.flatMap_cons, List.flatMap_append, assemble_append,
          assemble_ended hm _ (hmsgs x List.mem_cons_self), htail] at hlen
        simp only [List.length_append, List.length_cons, List.length_nil] at hlen
        omega
    · rw [received_append (received_singleton hm hf), hrest]
      exact iff_of_true rfl (iff_of_false hc hf)

/-- The same for any number of messages. -/
theorem received_sentAfter_iff (hm : 0 < m) {c : ℕ} {msgs : List (List β)}
    (h : ∀ x ∈ msgs, x ≠ []) :
    received m (sentAfter m c msgs) = (msgs, []) ↔
      ∀ first ∈ msgs.head?, (m ∣ c+first.length ↔ m ∣ first.length) := by
  cases msgs with
  | nil => exact iff_of_true rfl fun first hf => by cases hf
  | cons first msgs =>
    have hiff := received_endedAfter_iff hm (c := c) (h first List.mem_cons_self)
      fun x hx => h x (List.mem_cons_of_mem first hx)
    refine hiff.trans ⟨?_, fun hall => hall first rfl⟩
    rintro hdvd x ⟨⟩
    exact hdvd

end ShortPackets
