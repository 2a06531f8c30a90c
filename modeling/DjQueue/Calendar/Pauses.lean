import Mathlib.Algebra.BigOperators.Group.List.Basic
import Mathlib.Algebra.Order.Ring.Int
import Mathlib.Order.Basic

/-!
# Time without pauses

A clock is paused now and then, one pause after the other.  What counts of the time since a moment
is what no pause covers.  It can be kept as an origin that every resume moves: an origin before the
pause by the length of the pause, any other one to the end of the pause.
-/

namespace Pauses

/-- How much of a pause lies after a moment. -/
def overlap (since : Int) (pause : Int × Int) : Int := max (pause.2 - max pause.1 since) 0

/-- How much of the time since a moment was paused. -/
def pausedTime (pauses : List (Int × Int)) (since : Int) : Int :=
  (pauses.map (overlap since)).sum

/-- Pauses one after the other, the last one first, all over by `until'`. -/
def Successive : List (Int × Int) → Int → Prop
  | [], _ => True
  | pause :: earlier, until' => pause.1 ≤ pause.2 ∧ pause.2 ≤ until' ∧ Successive earlier pause.1

/-- The origin after a pause. -/
def movedOrigin (pausedAt resumedAt origin : Int) : Int :=
  if origin < pausedAt then origin + (resumedAt - pausedAt) else resumedAt

variable {pauses : List (Int × Int)} {since until' later : Int} {pause : Int × Int}

/-- A history is a history of any later time. -/
theorem Successive.mono (successive : Successive pauses until') (le : until' ≤ later) :
    Successive pauses later := by
  cases pauses with
  | nil => trivial
  | cons pause earlier =>
      rcases successive with ⟨lasts, ends, rest⟩
      exact ⟨lasts, Int.le_trans ends le, rest⟩

/-- A pause that begins later counts whole. -/
theorem overlap_of_le (lasts : pause.1 ≤ pause.2) (before : since ≤ pause.1) :
    overlap since pause = pause.2 - pause.1 := by
  unfold overlap
  omega

/-- A pause that was under way counts from then on. -/
theorem overlap_of_ge (after : pause.1 ≤ since) (ends : since ≤ pause.2) :
    overlap since pause = pause.2 - since := by
  unfold overlap
  omega

/-- A pause that was over does not count. -/
theorem overlap_of_over (ends : pause.2 ≤ since) : overlap since pause = 0 := by
  unfold overlap
  omega

@[simp] theorem pausedTime_nil : pausedTime [] since = 0 := rfl

theorem pausedTime_cons : pausedTime (pause :: pauses) since =
    overlap since pause + pausedTime pauses since := by
  rw [pausedTime, List.map_cons, List.sum_cons, pausedTime]

/-- Pauses that were over before a moment take nothing from the time since. -/
theorem pausedTime_eq_zero (successive : Successive pauses until') (before : until' ≤ since) :
    pausedTime pauses since = 0 := by
  induction pauses generalizing until' with
  | nil => rfl
  | cons pause earlier ih =>
      rcases successive with ⟨lasts, ends, rest⟩
      rw [pausedTime_cons, overlap_of_over (by omega), ih rest (by omega)]
      rfl

/-- Pauses take no more than the time there was. -/
theorem since_add_pausedTime_le (successive : Successive pauses until') (le : since ≤ until') :
    since + pausedTime pauses since ≤ until' := by
  induction pauses generalizing until' with
  | nil => simpa using le
  | cons pause earlier ih =>
      rcases successive with ⟨lasts, ends, rest⟩
      rw [pausedTime_cons]
      rcases Int.le_total since pause.1 with before | after
      · have taken := ih rest before
        rw [overlap_of_le lasts before]
        omega
      · rw [pausedTime_eq_zero rest after]
        rcases Int.le_total since pause.2 with inside | passed
        · rw [overlap_of_ge after inside]
          omega
        · rw [overlap_of_over passed]
          omega

/-- Moving the origin counts the pause out.  Where a time began as an earlier pause ended and the
new one began, its origin is on the edge: both cases of the move agree there. -/
theorem movedOrigin_eq {pausedAt resumedAt : Int} (successive : Successive pauses pausedAt)
    (lasts : pausedAt ≤ resumedAt) (began : since ≤ resumedAt) :
    movedOrigin pausedAt resumedAt (since + pausedTime pauses since) =
      since + pausedTime ((pausedAt, resumedAt) :: pauses) since := by
  rw [pausedTime_cons]
  unfold movedOrigin
  rcases Int.le_total since pausedAt with before | after
  · have taken := since_add_pausedTime_le successive before
    have whole : overlap since (pausedAt, resumedAt) = resumedAt - pausedAt :=
      overlap_of_le lasts before
    split <;> omega
  · have part : overlap since (pausedAt, resumedAt) = resumedAt - since :=
      overlap_of_ge after began
    rw [pausedTime_eq_zero successive after]
    split <;> omega

end Pauses
