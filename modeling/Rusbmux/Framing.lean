import Mathlib.Data.List.Basic
import Mathlib.Tactic.TypeStar

/-! Reads from the front of a stream: one after the other, and by a program
that asks for a number of elements at a time. The stream is a list, or a list
that comes in pieces. -/
namespace Framing

variable {σ α β γ : Type*}

/-- `n` reads in a row, with what is left. -/
def reads (read : σ → β × σ) : ℕ → σ → List β × σ
  | 0, s => ([], s)
  | n+1, s =>
    let (b, rest) := read s
    let (bs, rest) := reads read n rest
    (b :: bs, rest)

/-- A read that takes the frame and nothing else, whatever comes behind it. -/
def Takes (read : List α → β × List α) (frame : List α) (b : β) : Prop :=
  ∀ rest, read (frame ++ rest) = (b, rest)

/-- Frames that are each taken exactly are read off one after the other. -/
theorem reads_flatMap {ι : Type*} {read : List α → β × List α} (frame : ι → List α) (out : ι → β)
    (is : List ι) (h : ∀ i ∈ is, Takes read (frame i) (out i)) (rest : List α) :
    reads read is.length (is.flatMap frame ++ rest) = (is.map out, rest) := by
  induction is with
  | nil => rfl
  | cons i is ih =>
    have hi := h i List.mem_cons_self (is.flatMap frame ++ rest)
    have his := ih fun j hj => h j (List.mem_cons_of_mem i hj)
    simp only [List.flatMap_cons, List.length_cons, List.map_cons, reads, List.append_assoc, hi,
      his]

/-- What holds of every element and of those that follow it. -/
theorem forall_split_cons {P : α → List α → Prop} {a : α} {as : List α} :
    (∀ pre b post, a :: as = pre ++ b :: post → P b post) ↔
      P a as ∧ ∀ pre b post, as = pre ++ b :: post → P b post := by
  constructor
  · intro h
    exact ⟨h [] a as rfl, fun pre b post hsplit => h (a :: pre) b post (by rw [hsplit]; rfl)⟩
  · rintro ⟨ha, has⟩ pre b post hsplit
    cases pre with
    | nil =>
      cases hsplit
      exact ha
    | cons c pre =>
      cases hsplit
      exact has pre b post rfl

/-- A program that reads a stream, a number of elements at a time. -/
inductive ReadProgram (α β : Type*) where
  | done (b : β)
  | readExact (n : ℕ) (next : List α → ReadProgram α β)

/-- The pieces of a stream, each of them nonempty. -/
def Pieces (cs : List (List α)) : Prop := ∀ c ∈ cs, c ≠ []

/-- The first `n` elements of a stream in pieces. One read gets elements of one
piece at most, and an empty piece ends the stream. -/
def takePieces : ℕ → List (List α) → Option (List α × List (List α))
  | 0, cs => some ([], cs)
  | _+1, [] | _+1, [] :: _ => none
  | n+1, (x :: c) :: cs =>
    if n < c.length then some (x :: c.take n, c.drop n :: cs)
    else (takePieces (n-c.length) cs).map fun (xs, rest) => (x :: c ++ xs, rest)

namespace ReadProgram

/-- The program on a list; `eof` is its result when the list ends too soon. -/
def run (eof : β) : ReadProgram α β → List α → β × List α
  | done b, s => (b, s)
  | readExact n next, s =>
    if n ≤ s.length then run eof (next (s.take n)) (s.drop n) else (eof, [])

/-- The program on a stream in pieces. -/
def runPieces (eof : β) : ReadProgram α β → List (List α) → β × List (List α)
  | done b, cs => (b, cs)
  | readExact n next, cs => match takePieces n cs with
    | some (xs, rest) => runPieces eof (next xs) rest
    | none => (eof, [])

def andThen : ReadProgram α β → (β → ReadProgram α γ) → ReadProgram α γ
  | done b, f => f b
  | readExact n next, f => readExact n fun xs => (next xs).andThen f

/-- Every result of the program meets `P`. -/
def Leaves (P : β → Prop) : ReadProgram α β → Prop
  | done b => P b
  | readExact _ next => ∀ xs, (next xs).Leaves P

end ReadProgram

theorem takePieces_of_le {cs : List (List α)} (hcs : Pieces cs) {n : ℕ}
    (hn : n ≤ cs.flatten.length) : ∃ rest, takePieces n cs = some (cs.flatten.take n, rest) ∧
      rest.flatten = cs.flatten.drop n ∧ Pieces rest := by
  induction cs generalizing n with
  | nil =>
    obtain rfl : n = 0 := Nat.le_zero.mp hn
    exact ⟨[], rfl, rfl, hcs⟩
  | cons c cs ih =>
    have htail : Pieces cs := fun c' hc' => hcs c' (List.mem_cons_of_mem c hc')
    cases n with
    | zero => exact ⟨c :: cs, rfl, rfl, hcs⟩
    | succ n =>
      cases c with
      | nil => exact absurd rfl (hcs [] List.mem_cons_self)
      | cons x c =>
        simp only [List.flatten_cons, List.cons_append, List.length_cons,
          List.length_append] at hn
        by_cases h : n < c.length
        · -- the read ends inside the first piece
          refine ⟨c.drop n :: cs, ?_, ?_, ?_⟩
          · simp only [takePieces, h, if_true, List.flatten_cons, List.cons_append,
              List.take_succ_cons, List.take_append_of_le_length (Nat.le_of_lt h)]
          · simp only [List.flatten_cons, List.cons_append, List.drop_succ_cons,
              List.drop_append_of_le_length (Nat.le_of_lt h)]
          · intro c' hc'
            rcases List.mem_cons.mp hc' with rfl | hc'
            · exact List.ne_nil_of_length_pos (by rw [List.length_drop]; omega)
            · exact htail c' hc'
        · obtain ⟨rest, htake, hflat, hrest⟩ := ih htail (n := n-c.length) (by omega)
          refine ⟨rest, ?_, ?_, hrest⟩
          · simp only [takePieces, h, if_false, htake, Option.map_some, List.flatten_cons,
              List.cons_append, List.take_succ_cons, List.take_append,
              List.take_of_length_le (Nat.not_lt.mp h)]
          · simp only [hflat, List.flatten_cons, List.cons_append, List.drop_succ_cons,
              List.drop_append, List.drop_of_length_le (Nat.not_lt.mp h), List.nil_append]

theorem takePieces_of_lt {cs : List (List α)} {n : ℕ} (hn : cs.flatten.length < n) :
    takePieces n cs = none := by
  induction cs generalizing n with
  | nil =>
    cases n with
    | zero => exact absurd hn (Nat.not_lt_zero _)
    | succ n => rfl
  | cons c cs ih =>
    cases n with
    | zero => exact absurd hn (Nat.not_lt_zero _)
    | succ n =>
      cases c with
      | nil => rfl
      | cons x c =>
        simp only [List.flatten_cons, List.cons_append, List.length_cons,
          List.length_append] at hn
        have h : ¬n < c.length := by omega
        simp only [takePieces, h, if_false, ih (n := n-c.length) (by omega), Option.map_none]

/-- How a stream is cut into pieces makes no difference to a program. -/
theorem ReadProgram.runPieces_eq (eof : β) (p : ReadProgram α β) {cs : List (List α)}
    (hcs : Pieces cs) : (p.runPieces eof cs).1 = (p.run eof cs.flatten).1 ∧
      (p.runPieces eof cs).2.flatten = (p.run eof cs.flatten).2 ∧
      Pieces (p.runPieces eof cs).2 := by
  induction p generalizing cs with
  | done b => exact ⟨rfl, rfl, hcs⟩
  | readExact n next ih =>
    by_cases hn : n ≤ cs.flatten.length
    · obtain ⟨rest, htake, hflat, hrest⟩ := takePieces_of_le hcs hn
      have hnext := ih (cs.flatten.take n) hrest
      rw [hflat] at hnext
      simpa only [runPieces, run, htake, hn, if_true] using hnext
    · have htake := takePieces_of_lt (Nat.not_le.mp hn)
      simp only [runPieces, run, htake, hn, if_false, List.flatten_nil, true_and]
      exact fun c hc => absurd hc List.not_mem_nil

/-- The same for a program that is run again and again. -/
theorem reads_runPieces_eq (eof : β) (p : ReadProgram α β) (n : ℕ) {cs : List (List α)}
    (hcs : Pieces cs) : (reads (p.runPieces eof) n cs).1 = (reads (p.run eof) n cs.flatten).1 ∧
      (reads (p.runPieces eof) n cs).2.flatten = (reads (p.run eof) n cs.flatten).2 := by
  induction n generalizing cs with
  | zero => exact ⟨rfl, rfl⟩
  | succ n ih =>
    obtain ⟨hout, hflat, hrest⟩ := p.runPieces_eq eof hcs
    have hnext := ih hrest
    rw [hflat] at hnext
    simp only [reads, hout, hnext, and_self]

theorem ReadProgram.run_andThen (eof : β) (eof' : γ) (f : β → ReadProgram α γ)
    (hf : f eof = done eof') (p : ReadProgram α β) (s : List α) :
    (p.andThen f).run eof' s = (f (p.run eof s).1).run eof' (p.run eof s).2 := by
  induction p generalizing s with
  | done b => rfl
  | readExact n next ih =>
    by_cases hn : n ≤ s.length
    · simp only [andThen, run, hn, if_true, ih]
    · simp only [andThen, run, hn, if_false, hf]

theorem ReadProgram.Leaves.andThen {P : β → Prop} {Q : γ → Prop} {p : ReadProgram α β}
    (h : p.Leaves P) {f : β → ReadProgram α γ} (hf : ∀ b, P b → (f b).Leaves Q) :
    (p.andThen f).Leaves Q := by
  induction p with
  | done b => exact hf b h
  | readExact n next ih => exact fun xs => ih xs (h xs)

end Framing
