import LinuxStudy.Posix.Bytes

/-! Pipes and FIFOs with blocking reads and writes. The content is what has been written and
not yet read.
-/

namespace LinuxStudy.Posix

/-- `PIPE_BUF`: a write of at most this many bytes is not split. -/
def pipeBuf : Nat := 4096

/-- How many bytes a pipe holds. -/
def pipeCapacity : Nat := 65536

/-- A write of `total` bytes, `sent` of them in the pipe already, puts `n` more into it: all of
them at once, or as many as there is room for when the write may be split.
-/
def Transfers (content : Bytes) (total sent n : Nat) : Prop :=
  0 < n ∧ sent + n ≤ total ∧ content.length + n ≤ pipeCapacity ∧ (total ≤ pipeBuf → n = total)

instance (content : Bytes) (total sent n : Nat) : Decidable (Transfers content total sent n) := by
  unfold Transfers
  infer_instance

/-- What a read of up to `size` bytes takes out of the pipe: all there is, as far as it fits.
It blocks when there is nothing, as long as the pipe is open for writing.
-/
def pipeRead (size : Nat) (content : Bytes) : Bytes := content.take size

theorem length_pipeRead (size : Nat) (content : Bytes)
    : (pipeRead size content).length = min size content.length :=
  List.length_take

theorem pipeRead_append_drop (size : Nat) (content : Bytes)
    : pipeRead size content ++ content.drop size = content :=
  List.take_append_drop size content

/-- A short write goes into an empty pipe as a whole. -/
theorem transfers_whole {total : Nat} (some : 0 < total) (short : total ≤ pipeBuf)
    : Transfers [] total 0 total := by
  have room : pipeBuf ≤ pipeCapacity := by decide
  refine ⟨some, by omega, ?_, fun _ => rfl⟩
  rw [List.length_nil]
  omega

/-- A short write is done by its first transfer. -/
theorem Transfers.eq_total {content : Bytes} {total sent n : Nat}
    (transfers : Transfers content total sent n) (short : total ≤ pipeBuf)
    : sent = 0 ∧ n = total := by
  obtain ⟨_, bound, _, whole⟩ := transfers
  have all := whole short
  omega

/-- There is room for a short write, or something can be read first. -/
theorem transfers_or_ne_nil (content : Bytes) {total : Nat} (some : 0 < total)
    (short : total ≤ pipeBuf)
    : Transfers content total 0 total ∨ content ≠ [] := by
  cases content with
  | nil => exact Or.inl (transfers_whole some short)
  | cons => exact Or.inr (List.cons_ne_nil _ _)

end LinuxStudy.Posix
