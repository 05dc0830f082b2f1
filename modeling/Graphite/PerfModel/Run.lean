import Graphite.PerfModel.MagicPep

/-!
# Runs of calls on one model

The rest of the simulator drives a `MagicPepPerformanceModel` through the
public calls of `CorePerfModel`: the functional side queues blocks and pushes
facts, the perf side calls `iterate`, the user-level collectives call `enable`
and `disable`. `Op` names these calls and `run` makes a list of them in order,
stopping at the first failed assertion (`LOG_ASSERT_ERROR` ends the process).

A call that throws any other exception hands it to its caller with the model
as it is: `step` keeps that state. Inside `iterate` the stall exception is
caught; a `getDynamicInstructionInfo` called on its own throws it to the
caller.
-/

namespace Graphite

/-- The model a call leaves, or the assertion it fails. -/
def Outcome.state {σ α : Type} : Outcome σ α → Except String σ
  | .ok _ s | .abortInstruction s | .notAvailable s => .ok s
  | .fatal msg => .error msg

/-- A call whose states all satisfy `P` leaves a model satisfying `P`, if it
leaves one. -/
theorem Outcome.Keeps.of_state {σ α : Type} {P : σ → Prop} {x : Outcome σ α} {t : σ}
    (hx : x.Keeps P) (h : x.state = .ok t) : P t := by
  cases x <;> cases h <;> exact hx

namespace MagicPepPerformanceModel

open CorePerfModel

/-- The public calls on one model. `enable` records the core of the calling
thread, which is what `CorePerfModel::enable()` asks the tile manager for. -/
inductive Op
  | enable (currentCoreID : Nat)
  | disable
  | queueDynamicInstruction (i : Instruction)
  | queueBasicBlock (b : BasicBlock)
  | pushDynamicInstructionInfo (f : DynamicInstructionInfo)
  | popDynamicInstructionInfo
  | getDynamicInstructionInfo
  | iterate
  deriving DecidableEq, Repr

variable (cfg : Config)

/-- One call. -/
def step : Op → MagicPepPerformanceModel → Except String MagicPepPerformanceModel
  | .enable c, s => .ok (enable cfg c s)
  | .disable, s => .ok (disable s)
  | .queueDynamicInstruction i, s => .ok (queueDynamicInstruction cfg i s)
  | .queueBasicBlock b, s => .ok (queueBasicBlock cfg b s)
  | .pushDynamicInstructionInfo f, s => .ok (pushDynamicInstructionInfo cfg f s)
  | .popDynamicInstructionInfo, s => (popDynamicInstructionInfo cfg s).state
  | .getDynamicInstructionInfo, s => (getDynamicInstructionInfo s).state
  | .iterate, s => iterate cfg s

/-- The calls `ops`, in order, from `s`. -/
def run : List Op → MagicPepPerformanceModel → Except String MagicPepPerformanceModel
  | [], s => .ok s
  | o :: os, s =>
    match step cfg o s with
    | .ok t => run os t
    | .error msg => .error msg

variable {cfg}

@[simp] theorem run_nil (s : MagicPepPerformanceModel) : run cfg [] s = .ok s := rfl

theorem run_cons_of_step {o : Op} {os : List Op} {s t : MagicPepPerformanceModel}
    (h : step cfg o s = .ok t) : run cfg (o :: os) s = run cfg os t := by
  simp [run, h]

theorem run_append_of_run {xs ys : List Op} {s t : MagicPepPerformanceModel}
    (h : run cfg xs s = .ok t) : run cfg (xs ++ ys) s = run cfg ys t := by
  induction xs generalizing s with
  | nil => cases h; rfl
  | cons o xs ih =>
    rw [run] at h
    split at h
    · next u hu => rw [List.cons_append, run_cons_of_step hu, ih h]
    · cases h

theorem run_cons_of_error {o : Op} {os : List Op} {s : MagicPepPerformanceModel} {msg : String}
    (h : step cfg o s = .error msg) : run cfg (o :: os) s = .error msg := by
  simp [run, h]

/-- A run that reaches `t` and then makes `o` from there. -/
theorem run_concat {xs : List Op} {o : Op} {s t u : MagicPepPerformanceModel}
    (h : run cfg xs s = .ok t) (ho : step cfg o t = .ok u) : run cfg (xs ++ [o]) s = .ok u := by
  rw [run_append_of_run h, run_cons_of_step ho, run_nil]

end MagicPepPerformanceModel

end Graphite
