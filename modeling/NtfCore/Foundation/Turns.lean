import Mathlib.Data.List.Nodup
import Mathlib.Data.List.Range

/-!
Contract: what waits in a line, and is served in turn.

Owns: the numbers that were drawn one after another and stand in one line, those served
before those that wait (`Drawn`); and tickets that wait in the order in which they were
drawn, where some may leave the line without being served (`InTurn`).
-/

namespace NtfCore.Foundation.Turns

open List

/-! ## All numbers stand in the line -/

/-- Of the numbers drawn so far, each stands in the line once and in its place: first
those served, then those that wait. -/
def Drawn (served waiting : List Nat) (next : Nat) : Prop :=
  served ++ waiting = List.range next

namespace Drawn

variable {served waiting : List Nat} {next : Nat}

/-- The number drawn next goes to the end of the line. -/
theorem join (drawn : Drawn served waiting next) : Drawn served (waiting ++ [next]) (next + 1) := by
  unfold Drawn at *
  rw [← append_assoc, drawn, range_succ]

theorem serve {front : Nat} (drawn : Drawn served (front :: waiting) next) :
    Drawn (served ++ [front]) waiting next := by
  unfold Drawn at *
  rw [← drawn, append_assoc, singleton_append]

theorem serve_next (drawn : Drawn served [] next) : Drawn (served ++ [next]) [] (next + 1) :=
  drawn.join.serve

theorem count_eq_one (drawn : Drawn served waiting next) {number : Nat} (isDrawn : number < next) :
    served.count number + waiting.count number = 1 := by
  rw [← count_append, drawn]
  exact count_eq_one_of_mem nodup_range (mem_range.mpr isDrawn)

theorem pairwise (drawn : Drawn served waiting next) : (served ++ waiting).Pairwise (· < ·) := by
  rw [drawn]
  exact pairwise_lt_range

end Drawn

/-! ## Tickets that may leave the line -/

variable {Ticket : Type} [Preorder Ticket]

/-- Tickets are served in order, and none after one that waits. -/
def InTurn (served waiting : List Ticket) : Prop :=
  (served ++ waiting).Pairwise (· < ·)

namespace InTurn

variable {served waiting : List Ticket} {ticket : Ticket}

theorem nil : InTurn ([] : List Ticket) [] := Pairwise.nil

/-- A ticket later than all goes to the end of the line. -/
theorem join (inTurn : InTurn served waiting)
    (last : ∀ other ∈ served ++ waiting, other < ticket) : InTurn served (waiting ++ [ticket]) := by
  unfold InTurn at *
  rw [← append_assoc, pairwise_append]
  refine ⟨inTurn, pairwise_singleton _ _, ?_⟩
  intro other mem newest isNewest
  rw [mem_singleton.mp isNewest]
  exact last other mem

/-- The front of the line is served. -/
theorem serve (inTurn : InTurn served (ticket :: waiting)) :
    InTurn (served ++ [ticket]) waiting := by
  unfold InTurn at *
  rw [append_assoc, singleton_append]
  exact inTurn

theorem serve_last (inTurn : InTurn served []) (last : ∀ other ∈ served, other < ticket) :
    InTurn (served ++ [ticket]) [] := by
  apply serve
  apply inTurn.join
  intro other mem
  exact last other (by simpa using mem)

theorem leave {rest : List Ticket} (inTurn : InTurn served waiting)
    (isRest : rest.Sublist waiting) : InTurn served rest :=
  Pairwise.sublist (isRest.append_left served) inTurn

end InTurn

end NtfCore.Foundation.Turns
