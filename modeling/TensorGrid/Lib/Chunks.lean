import Mathlib

/-!
# Cutting a range into runs of one length

`Chunks.size total per j` is the length of run `j` of the numbers below `total`, cut into runs of
`per` numbers: all are full but the last that is not empty. With `per` the rounded-up share of
`count` runs, the runs differ by at most one exactly if there is at most one number for each, or the
last run is full or one short (`even_iff`).
-/

namespace Chunks

/-- Where run `j` starts. -/
def start (total per j : Nat) : Nat := min (j * per) total

/-- The length of run `j`. -/
def size (total per j : Nat) : Nat := start total per (j + 1) - start total per j

variable {total per j count : Nat}

theorem start_le_succ (total per j : Nat) : start total per j ≤ start total per (j + 1) := by
  have := Nat.mul_le_mul_right per (Nat.le_add_right j 1)
  rw [start, start]
  omega

theorem start_add_size (total per j : Nat) :
    start total per j + size total per j = start total per (j + 1) :=
  Nat.add_sub_cancel' (start_le_succ total per j)

theorem size_le (total per j : Nat) : size total per j ≤ per := by
  rw [size, start, start, Nat.succ_mul]
  omega

/-- Later runs are not longer. -/
theorem size_antitone (total per : Nat) {i : Nat} (h : i ≤ j) :
    size total per j ≤ size total per i := by
  have := Nat.mul_le_mul_right per h
  rw [size, size, start, start, start, start, Nat.succ_mul, Nat.succ_mul]
  omega

theorem size_zero (h : per ≤ total) : size total per 0 = per := by
  rw [size, start, start, Nat.zero_add, Nat.one_mul, Nat.zero_mul]
  omega

/-- The last run takes what the others have left. -/
theorem size_last (h : total ≤ (count + 1) * per) :
    size total per count = total - count * per := by
  rw [size, start, start]
  omega

/-- No two of the first `count` runs differ by more than one. -/
def Even (total per count : Nat) : Prop :=
  ∀ i < count, ∀ j < count, size total per i ≤ size total per j + 1

/-- The first run is the longest, the last one the shortest. -/
theorem even_iff_last (hper : per ≤ total) (hcover : total ≤ (count + 1) * per) :
    Even total per (count + 1) ↔ per ≤ total - count * per + 1 := by
  rw [← size_last hcover]
  refine ⟨fun h => ?_, fun h i _ j hj => ?_⟩
  · have := h 0 (Nat.succ_pos _) count (Nat.lt_succ_self _)
    rwa [size_zero hper] at this
  · have := size_antitone total per (Nat.le_of_lt_succ hj)
    have := size_le total per i
    omega

theorem le_mul_ceilDiv (total : Nat) (hcount : 0 < count) : total ≤ count * (total ⌈/⌉ count) :=
  le_smul_ceilDiv hcount

theorem ceilDiv_le (hcount : 0 < count) : total ⌈/⌉ count ≤ total :=
  (ceilDiv_le_iff_le_mul hcount).2 (Nat.le_mul_of_pos_left _ hcount)

/-- **When the runs are even.** -/
theorem even_iff (hcount : 0 < count) :
    Even total (total ⌈/⌉ count) count ↔ total ≤ count ∨ count ∣ total ∨ count ∣ total + 1 := by
  obtain ⟨last, rfl⟩ : ∃ last, count = last + 1 := ⟨count - 1, by omega⟩
  have hcover := le_mul_ceilDiv total hcount
  have hleast (q : Nat) : total ⌈/⌉ (last + 1) ≤ q ↔ total ≤ (last + 1) * q :=
    ceilDiv_le_iff_le_mul hcount
  rw [even_iff_last (ceilDiv_le hcount) hcover]
  generalize total ⌈/⌉ (last + 1) = per at hcover hleast
  have hone : per ≤ 1 ↔ total ≤ last + 1 := by rw [hleast, Nat.mul_one]
  rw [Nat.succ_mul] at hcover
  constructor
  · intro h
    by_cases hsmall : per ≤ 1
    · exact .inl (hone.1 hsmall)
    · -- the last run is not empty
      obtain heq | heq : total = last * per + per ∨ total + 1 = last * per + per := by omega
      · exact .inr (.inl ⟨per, by rw [heq, Nat.succ_mul]⟩)
      · exact .inr (.inr ⟨per, by rw [heq, Nat.succ_mul]⟩)
  · rintro (h | ⟨q, hq⟩ | ⟨q, hq⟩)
    · have := hone.2 h
      omega
    · obtain rfl : per = q := by
        refine le_antisymm ((hleast q).2 hq.le) ?_
        rw [hq, ← Nat.succ_mul] at hcover
        exact Nat.le_of_mul_le_mul_left hcover hcount
      rw [Nat.succ_mul] at hq
      omega
    · have hle : per ≤ q := (hleast q).2 (by omega)
      have := Nat.mul_le_mul_left last hle
      rw [Nat.succ_mul] at hq
      omega

/-- Even runs are not empty if there are enough numbers. -/
theorem Even.size_pos (h : Even total (total ⌈/⌉ count) count) (hle : count ≤ total) {j : Nat}
    (hj : j < count) : 0 < size total (total ⌈/⌉ count) j := by
  obtain ⟨last, rfl⟩ : ∃ last, count = last + 1 := ⟨count - 1, by omega⟩
  have hcover := le_mul_ceilDiv total (Nat.succ_pos last)
  rw [even_iff_last (ceilDiv_le (Nat.succ_pos last)) hcover] at h
  have hanti := size_antitone total (total ⌈/⌉ (last + 1)) (Nat.le_of_lt_succ hj)
  rw [size_last hcover] at hanti
  generalize total ⌈/⌉ (last + 1) = per at h hcover hanti ⊢
  by_cases hsmall : per ≤ 1
  · obtain rfl | rfl : per = 0 ∨ per = 1 := by omega
    · omega
    · omega
  · omega

end Chunks
