import Mathlib.Data.Nat.ModEq
import Mathlib.Logic.Function.Basic

/-! Rings of slots that a writer fills and a reader clears, over any type of elements. A ring
holds the unread part of everything that was ever written.
-/

namespace LinuxStudy.Histories

universe u

/-- The slots hold what was written and not yet cleared, each element in the slot its number
leads to, and are blank otherwise. `cleared` counts the elements that are gone.
-/
structure RingHolds {α : Type u} (capacity : Nat) (blank : α) (slots : Nat → α)
    (written : List α) (cleared : Nat) : Prop where
  order : cleared ≤ written.length
  room : written.length ≤ cleared + capacity
  held
    : ∀ k (bound : k < written.length),
        cleared ≤ k → slots (k % capacity) = written[k]
  free
    : ∀ k,
        written.length ≤ k → k < cleared + capacity → slots (k % capacity) = blank

/-- Numbers less than one round apart lead to different slots. -/
theorem mod_ne_mod {first second capacity : Nat} (later : first < second)
    (near : second < first + capacity)
    : first % capacity ≠ second % capacity := by
  intro same
  have divides : capacity ∣ second - first :=
    (Nat.modEq_iff_dvd' (Nat.le_of_lt later)).mp same
  have far := Nat.le_of_dvd (by omega) divides
  omega

/-- The next slot, as a loop that starts again at 0 computes it. -/
theorem next_mod {n capacity : Nat} (positive : 0 < capacity)
    : (if capacity ≤ n % capacity + 1 then 0 else n % capacity + 1) = (n + 1) % capacity := by
  have bound := Nat.mod_lt n positive
  rw [← Nat.mod_add_mod]
  split
  next full =>
    have last : n % capacity + 1 = capacity := by omega
    rw [last, Nat.mod_self]
  next part => rw [Nat.mod_eq_of_lt (by omega : n % capacity + 1 < capacity)]

section Ring

variable {α : Type u} {capacity : Nat} {blank : α} {slots : Nat → α} {written : List α}
  {cleared : Nat}

theorem RingHolds.empty : RingHolds capacity blank (fun _ => blank) [] 0 where
  order := Nat.le_refl 0
  room := Nat.zero_le _
  held _ bound := absurd bound (Nat.not_lt_zero _)
  free _ _ _ := rfl

/-- While the slot of the next element is blank, the ring is not full. -/
theorem RingHolds.not_full (holds : RingHolds capacity blank slots written cleared)
    (positive : 0 < capacity) (proper : ∀ element ∈ written, element ≠ blank)
    (empty : slots (written.length % capacity) = blank)
    : written.length < cleared + capacity := by
  by_contra full
  have room := holds.room
  have same : written.length % capacity = cleared % capacity := by
    have length : written.length = cleared + capacity := by omega
    rw [length, Nat.add_mod_right]
  have bound : cleared < written.length := by omega
  rw [same, holds.held cleared bound (Nat.le_refl _)] at empty
  exact proper _ (List.getElem_mem bound) empty

/-- Writing one element into a ring that is not full. -/
theorem RingHolds.write (holds : RingHolds capacity blank slots written cleared)
    (room : written.length < cleared + capacity) (element : α)
    : RingHolds capacity blank (Function.update slots (written.length % capacity) element)
        (written ++ [element]) cleared := by
  have order := holds.order
  constructor
  · simp only [List.length_append, List.length_singleton]
    omega
  · simp only [List.length_append, List.length_singleton]
    omega
  · intro k bound old
    by_cases last : k = written.length
    · subst last
      simp
    · have earlier : k < written.length := by
        simp only [List.length_append, List.length_singleton] at bound
        omega
      have apart := mod_ne_mod earlier (by omega : written.length < k + capacity)
      rw [Function.update_of_ne apart, List.getElem_append_left earlier]
      exact holds.held k earlier old
  · intro k new near
    simp only [List.length_append, List.length_singleton] at new
    have close : k < written.length + capacity := by omega
    have apart := mod_ne_mod (by omega : written.length < k) close
    rw [Function.update_of_ne apart.symm]
    exact holds.free k (by omega) near

/-- Clearing the oldest element. -/
theorem RingHolds.clear (holds : RingHolds capacity blank slots written cleared)
    (some : cleared < written.length)
    : RingHolds capacity blank (Function.update slots (cleared % capacity) blank) written
        (cleared + 1) := by
  have room := holds.room
  constructor
  · exact some
  · omega
  · intro k bound later
    have close : k < cleared + capacity := by omega
    have apart := mod_ne_mod (by omega : cleared < k) close
    rw [Function.update_of_ne apart.symm]
    exact holds.held k bound (by omega)
  · intro k new near
    by_cases last : k = cleared + capacity
    · subst last
      simp
    · have close : k < cleared + capacity := by omega
      have apart := mod_ne_mod (by omega : cleared < k) close
      rw [Function.update_of_ne apart.symm]
      exact holds.free k new close

/-- A slot that is not blank at the reader's place holds the oldest element. -/
theorem RingHolds.oldest (holds : RingHolds capacity blank slots written cleared)
    (positive : 0 < capacity) (occupied : slots (cleared % capacity) ≠ blank)
    : ∃ bound : cleared < written.length, slots (cleared % capacity) = written[cleared] := by
  have order := holds.order
  by_cases some : cleared < written.length
  · exact ⟨some, holds.held cleared some (Nat.le_refl _)⟩
  · exact absurd (holds.free cleared (by omega) (by omega)) occupied

end Ring

end LinuxStudy.Histories
