import Mathlib.Data.Option.Basic

/-! Counting semaphores: a number that a wait lowers and a post raises. -/

namespace LinuxStudy.Sync

/-- `sem_wait` lowers a positive value and blocks at 0. -/
def semWait (value : Nat) : Option Nat := if 0 < value then some (value - 1) else none

/-- `sem_post` -/
def semPost (value : Nat) : Nat := value + 1

/-- A wait that returns has taken one from the value. -/
theorem semWait_eq_some {value next : Nat} : semWait value = some next ↔ value = next + 1 := by
  unfold semWait
  split
  next positive =>
    rw [Option.some_inj]
    omega
  next zero =>
    simp only [reduceCtorEq, false_iff]
    omega

/-- A wait blocks exactly at 0. -/
theorem exists_semWait {value : Nat} : (∃ next, semWait value = some next) ↔ 0 < value := by
  constructor
  · intro found
    obtain ⟨next, taken⟩ := found
    have := semWait_eq_some.mp taken
    omega
  · intro positive
    exact ⟨value - 1, if_pos positive⟩

end LinuxStudy.Sync
