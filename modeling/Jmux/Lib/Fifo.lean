/-
  Jmux.Lib.Fifo — what goes into a first-in-first-out conduit comes out, in
  order and once.

  The conduit may consist of several queues and buffers; `inFlight` is all that
  is in them, in order.  The law is one equation, and each lemma says what one
  kind of step does to it.
-/
import Mathlib.Data.List.Basic

namespace Jmux.Lib

variable {α : Type*} {sent inFlight got : List α}

/-- What was sent is what came out, followed by what is in between. -/
def Conserved (sent inFlight got : List α) : Prop := sent = got ++ inFlight

instance [DecidableEq α] : Decidable (Conserved sent inFlight got) :=
  inferInstanceAs (Decidable (_ = _))

theorem Conserved.empty : Conserved ([] : List α) [] [] := rfl

/-- Something enters at the back. -/
theorem Conserved.send (h : Conserved sent inFlight got) (xs : List α) :
    Conserved (sent ++ xs) (inFlight ++ xs) got := by
  unfold Conserved at h ⊢
  rw [h, List.append_assoc]

/-- Something leaves at the front and is received. -/
theorem Conserved.receive {xs rest : List α} (h : Conserved sent (xs ++ rest) got) :
    Conserved sent rest (got ++ xs) := by
  unfold Conserved at h ⊢
  rw [h, List.append_assoc]

/-- What leaves and is not received is lost. -/
theorem Conserved.drop_iff {xs rest : List α} (h : Conserved sent (xs ++ rest) got) :
    Conserved sent rest got ↔ xs = [] := by
  unfold Conserved at h ⊢
  rw [h, List.append_cancel_left_eq]
  exact List.append_left_eq_self

/-- What is sent and does not enter is lost. -/
theorem Conserved.send_away_iff (h : Conserved sent inFlight got) (xs : List α) :
    Conserved (sent ++ xs) inFlight got ↔ xs = [] := by
  unfold Conserved at h ⊢
  rw [h]
  exact List.append_right_eq_self

end Jmux.Lib
