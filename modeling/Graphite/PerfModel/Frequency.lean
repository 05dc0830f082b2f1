import Graphite.PerfModel.MagicPep

/-!
# Frequency accounting

The calls that move a model's clock and its frequency bookkeeping:
`setCycleCount` on thread start, the cycles `iterate` charges
(`iterate_frequency_frame`: nothing else of the bookkeeping changes),
`updateInternalVariablesOnFrequencyChange` and `recomputeAverageFrequency` on
thread exit. A recomputation closes an epoch: the cycles since the checkpoint,
at the frequency in force.

The code computes in `float`; the model computes exactly, over `ℚ`, with a
division by zero as the one undefined value (`fdiv`). What the results below
use is that undefined value, NaN in `float` as well: when the first epoch
closed is empty, its recomputation divides `0` by a `total_time_taken` of `0`
at every frequency (`recomputeAverageFrequency_empty_epoch`, `recompute_at_start`),
and the average frequency stays NaN under every run of calls from then on
(`freqRun_averageFrequency`, `recompute_after_empty_epoch`).
-/

namespace Graphite.CorePerfModel

variable {M : Type}

/-! ## The calls -/

/-- The calls on a model that touch its clock or its frequency bookkeeping;
`advance n` is an `iterate` call that charged `n` cycles. -/
inductive FreqOp
  | setCycleCount (c : BitVec 64)
  | advance (n : BitVec 64)
  | updateInternalVariablesOnFrequencyChange (f : ℚ)
  | recomputeAverageFrequency
  deriving DecidableEq, Repr

/-- One call. -/
def FreqOp.apply : FreqOp → CorePerfModel M → CorePerfModel M
  | .setCycleCount c, s => CorePerfModel.setCycleCount c s
  | .advance n, s => { s with cycleCount := s.cycleCount + n }
  | .updateInternalVariablesOnFrequencyChange f, s =>
    CorePerfModel.updateInternalVariablesOnFrequencyChange f s
  | .recomputeAverageFrequency, s => CorePerfModel.recomputeAverageFrequency s

/-- The calls `ops`, in order. -/
def freqRun : List FreqOp → CorePerfModel M → CorePerfModel M
  | [], s => s
  | o :: os, s => freqRun os (o.apply s)

/-! ## The first epoch empty -/

/-- A recomputation with no time taken before and no cycle since the
checkpoint divides `0` by a `total_time_taken` of `0`, at every frequency: the
average frequency is undefined. -/
theorem recomputeAverageFrequency_empty_epoch {s : CorePerfModel M} (ht : s.totalTime = some 0)
    (hc : s.cycleCount = s.checkpointedCycleCount) :
    (recomputeAverageFrequency s).averageFrequency = none := by
  by_cases hf : s.frequency = 0 <;>
    simp [recomputeAverageFrequency, totalTimeTaken, cyclesElapsed, fdiv, ht, hc, hf]

/-- An undefined average frequency stays undefined under every call: a
recomputation multiplies it into `total_cycles_executed`. -/
theorem FreqOp.apply_averageFrequency {s : CorePerfModel M} (h : s.averageFrequency = none) (o : FreqOp) :
    (o.apply s).averageFrequency = none := by
  cases o <;> simp [FreqOp.apply, CorePerfModel.setCycleCount,
    CorePerfModel.updateInternalVariablesOnFrequencyChange, recomputeAverageFrequency, h]

theorem freqRun_averageFrequency {s : CorePerfModel M} (h : s.averageFrequency = none) (ops : List FreqOp) :
    (freqRun ops s).averageFrequency = none := by
  induction ops generalizing s with
  | nil => exact h
  | cons o os ih => exact ih (o.apply_averageFrequency h)

/-- A thread that exits before running a cycle: `recomputeAverageFrequency`
divides `0` cycles by a `total_time_taken` of `0`, and `frequencySummary`
reports no average frequency. -/
theorem recompute_at_start :
    totalTimeTaken (MagicPepPerformanceModel.init 1) = some 0 ∧
      (frequencySummary (recomputeAverageFrequency (MagicPepPerformanceModel.init 1))).2 = none :=
  ⟨by simp [totalTimeTaken, cyclesElapsed, fdiv, MagicPepPerformanceModel.init, init],
    recomputeAverageFrequency_empty_epoch (s := MagicPepPerformanceModel.init 1) rfl rfl⟩

/-- An empty first epoch, then 100 cycles at frequency 1: `total_time` is 100,
the time of the epochs, and the average frequency is NaN for good, where the
100 cycles in 100 time units make 1. -/
theorem recompute_after_empty_epoch :
    (freqRun [.recomputeAverageFrequency, .advance 100, .recomputeAverageFrequency]
      (MagicPepPerformanceModel.init 1)).totalTime = some 100 ∧
    (freqRun [.recomputeAverageFrequency, .advance 100, .recomputeAverageFrequency]
      (MagicPepPerformanceModel.init 1)).averageFrequency = none :=
  ⟨by simp [freqRun, FreqOp.apply, totalTimeTaken, cyclesElapsed, fdiv, MagicPepPerformanceModel.init, init],
    freqRun_averageFrequency
      (recomputeAverageFrequency_empty_epoch (s := MagicPepPerformanceModel.init 1) rfl rfl)
      [.advance 100, .recomputeAverageFrequency]⟩

end Graphite.CorePerfModel

namespace Graphite.MagicPepPerformanceModel

open CorePerfModel

/-- `iterate` leaves the frequency bookkeeping of the model as it was: it only
charges cycles, which `FreqOp.advance` stands for. -/
theorem iterate_frequency_frame {cfg : Config} {s t : MagicPepPerformanceModel}
    (h : iterate cfg s = .ok t) :
    t.frequency = s.frequency ∧ t.averageFrequency = s.averageFrequency ∧ t.totalTime = s.totalTime ∧
      t.checkpointedCycleCount = s.checkpointedCycleCount := by
  refine @iterateBlocks_keeps _ (handleInstruction cfg) (fun t => t.frequency = s.frequency ∧
    t.averageFrequency = s.averageFrequency ∧ t.totalTime = s.totalTime ∧
    t.checkpointedCycleCount = s.checkpointedCycleCount) s.basicBlockQueue ?_ ?_ ?_ s t
    ⟨rfl, rfl, rfl, rfl⟩ h
  · intro u i hu
    exact (handleInstruction_keeps u i).mono fun _ ⟨q, c, n, hv⟩ => hv ▸ hu
  · exact fun _ _ hu => hu
  · exact fun _ _ hu _ => hu

end Graphite.MagicPepPerformanceModel
