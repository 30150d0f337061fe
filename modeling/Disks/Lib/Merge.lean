import Mathlib.Data.List.Basic

/-!
# Streams that are merged

Pieces of several streams in the order in which they were taken, each with its stream.

* `part_snoc_self`, `part_snoc_other`: what one more piece adds to the streams.
* `part_filter`: the streams of which all pieces are kept.
-/

namespace Merge

variable {ι α : Type} [DecidableEq ι]

/-- What the pieces of stream `i` are together. -/
def part (i : ι) (log : List (ι × List α)) : List α :=
  (log.filter (·.1 = i)).flatMap (·.2)

/-- All pieces one behind the other. -/
def text (log : List (ι × List α)) : List α := log.flatMap (·.2)

variable {i j : ι} {log : List (ι × List α)} {piece : List α}

@[simp] theorem part_nil : part i ([] : List (ι × List α)) = [] := rfl

theorem part_snoc_self : part i (log ++ [(i, piece)]) = part i log ++ piece := by
  simp [part]

theorem part_snoc_other (h : j ≠ i) : part i (log ++ [(j, piece)]) = part i log := by
  simp [part, h]

omit [DecidableEq ι] in
theorem text_snoc : text (log ++ [(i, piece)]) = text log ++ piece := by
  simp [text]

theorem part_filter (keep : ι → Bool) (h : keep i = true) :
    part i (log.filter fun entry => keep entry.1) = part i log := by
  unfold part
  rw [List.filter_filter]
  congr 1
  apply List.filter_congr
  intro entry _
  by_cases hi : entry.1 = i
  · simp [hi, h]
  · simp [hi]

theorem part_eq_nil (h : ∀ entry ∈ log, entry.1 ≠ i) : part i log = [] := by
  unfold part
  rw [List.filter_eq_nil_iff.mpr (by simpa using h)]
  rfl

end Merge
