import Graphite.Basic
import Mathlib.Algebra.BigOperators.Group.List
import Mathlib.Algebra.Order.Field.Rat

/-!
# The performance model of a tile: its state and its queues

`CorePerfModel` (`core_perf_model.cc`) as a state record, and the operations of
the base class that do not cost instructions: `enable`, `disable`, the two
queues (`queueDynamicInstruction`, `queueBasicBlock`,
`pushDynamicInstructionInfo`, `popDynamicInstructionInfo`,
`getDynamicInstructionInfo`) and the frequency bookkeeping (`setCycleCount`,
`recomputeAverageFrequency`, `updateInternalVariablesOnFrequencyChange`).
`create` is the factory that picks a tile's concrete model from its
configuration; the magic co-processor model is the one modelled further.

The concrete model is a subclass; `CorePerfModel M` carries the fields it adds
as `derived : M`. A call that may throw ends in an `Outcome`: C++ exceptions
keep what the call changed before the throw, so `abortInstruction` and
`notAvailable` carry the state at the throw, and a failed `LOG_ASSERT_ERROR`,
which ends the process, is `fatal` with its message.

`UInt64` quantities are `BitVec 64` (wrapping, as in the code). Single-precision
floats are exact rationals, with `none` for a value that is not a finite
number: `fdiv` gives `none` when it divides by zero.
-/

namespace Graphite

/-! ## Instructions and dynamic information -/

/-- Modelled from the spec: the location class of an operand (`Operand::REG`,
`MEMORY`, `IMMEDIATE`; `instruction.h` is not among the sources). -/
inductive OperandType
  | reg
  | memory
  | immediate
  deriving DecidableEq, Repr

/-- Modelled from the spec: `Operand::READ` and `Operand::WRITE`. -/
inductive Direction
  | read
  | write
  deriving DecidableEq, Repr

/-- Modelled from the spec: an operand, with the fields `handleInstruction` reads. -/
structure Operand where
  type : OperandType
  direction : Direction
  deriving DecidableEq, Repr

/-- Modelled from the spec: the instruction types; `isModeled` tells apart only
`INST_RECV`, `INST_SYNC` and `INST_SPAWN`, and `other` stands for the rest. -/
inductive InstructionType
  | generic
  | branch
  | recv
  | sync
  | spawn
  | other (code : Nat)
  deriving DecidableEq, Repr

/-- Modelled from the spec: an `Instruction`, immutable after construction. -/
structure Instruction where
  type : InstructionType
  operands : List Operand
  /-- `getCost()`: the static cost in cycles. -/
  cost : BitVec 64
  deriving DecidableEq, Repr

/-- Modelled from the spec: a `DynamicInstructionInfo`, a fact the functional
side produces for the performance model. -/
inductive DynamicInstructionInfo
  | memoryRead (address latency : BitVec 64)
  | memoryWrite (address latency : BitVec 64)
  | branch (taken : Bool) (target : BitVec 64)
  deriving DecidableEq, Repr

/-- Modelled from the spec: a `BasicBlock`; `isDynamic` blocks are owned (and
deleted) by the queue. -/
structure BasicBlock where
  isDynamic : Bool
  instructions : List Instruction
  deriving DecidableEq, Repr

/-! ## The state -/

/-- A `CorePerfModel`, with the fields `M` of its concrete model. The branch
predictor and the tile are left out: no modelled function reads them. -/
structure CorePerfModel (M : Type) where
  cycleCount : BitVec 64
  frequency : ℚ
  averageFrequency : Option ℚ
  totalTime : Option ℚ
  checkpointedCycleCount : BitVec 64
  enabled : Bool
  currentInsIndex : Nat
  basicBlockQueue : List BasicBlock
  dynamicInfoQueue : List DynamicInstructionInfo
  derived : M
  deriving DecidableEq, Repr

/-- How a call that may throw ends (see the module docstring). -/
inductive Outcome (σ α : Type)
  | ok (a : α) (s : σ)
  | abortInstruction (s : σ)
  | notAvailable (s : σ)
  | fatal (msg : String)
  deriving DecidableEq, Repr

namespace Outcome

variable {σ α β : Type}

/-- Run `f` on the value and the state of a call that returned. -/
def bind : Outcome σ α → (α → σ → Outcome σ β) → Outcome σ β
  | .ok a s, f => f a s
  | .abortInstruction s, _ => .abortInstruction s
  | .notAvailable s, _ => .notAvailable s
  | .fatal msg, _ => .fatal msg

@[simp] theorem ok_bind (a : α) (s : σ) (f : α → σ → Outcome σ β) : (ok a s).bind f = f a s := rfl
@[simp] theorem notAvailable_bind (s : σ) (f : α → σ → Outcome σ β) :
    (notAvailable s).bind f = notAvailable s := rfl
@[simp] theorem fatal_bind (msg : String) (f : α → σ → Outcome σ β) :
    (fatal msg).bind f = fatal msg := rfl

/-- Every state the call can hand back (returning or throwing) satisfies `P`. -/
def Keeps (P : σ → Prop) : Outcome σ α → Prop
  | .ok _ t | .abortInstruction t | .notAvailable t => P t
  | .fatal _ => True

theorem Keeps.mono {P Q : σ → Prop} {x : Outcome σ α} (h : x.Keeps P) (hPQ : ∀ t, P t → Q t) :
    x.Keeps Q := by
  cases x with
  | ok _ t | abortInstruction t | notAvailable t => exact hPQ t h
  | fatal => trivial

/-- What `x` keeps, `f` keeps from there, and `P` implies `Q`: the whole call keeps `Q`. -/
theorem keeps_bind {P Q : σ → Prop} {x : Outcome σ α} {f : α → σ → Outcome σ β} (hx : x.Keeps P)
    (hf : ∀ a t, P t → (f a t).Keeps Q) (hPQ : ∀ t, P t → Q t) : (x.bind f).Keeps Q := by
  cases x with
  | ok a t => exact hf a t hx
  | abortInstruction t | notAvailable t => exact hPQ t hx
  | fatal => trivial

/-- A call that stalled did so in `x` or, after `x` returned, in `f`. -/
theorem bind_eq_notAvailable {x : Outcome σ α} {f : α → σ → Outcome σ β} {s : σ}
    (h : x.bind f = notAvailable s) :
    x = notAvailable s ∨ ∃ a t, x = ok a t ∧ f a t = notAvailable s := by
  cases x with
  | ok a t => exact .inr ⟨a, t, rfl, h⟩
  | notAvailable => exact .inl (by simpa using h)
  | abortInstruction | fatal => cases h

end Outcome

/-- Single-precision division, exactly: no finite result when dividing by zero
(NaN for `0 / 0`, an infinity otherwise, which are not told apart). -/
def fdiv (x y : ℚ) : Option ℚ := if y = 0 then none else some (x / y)

namespace CorePerfModel

variable {M : Type} (cfg : Config)

/-- `CorePerfModel::CorePerfModel(tile, frequency)`, for a concrete model whose
own fields start as `m`. -/
def init (frequency : ℚ) (m : M) : CorePerfModel M where
  cycleCount := 0
  frequency := frequency
  averageFrequency := some 0
  totalTime := some 0
  checkpointedCycleCount := 0
  enabled := false
  currentInsIndex := 0
  basicBlockQueue := []
  dynamicInfoQueue := []
  derived := m

/-- Modelled from the spec: `core_t`, the core of a tile a model is made for. -/
inductive CoreType
  | mainCore
  | pepCore
  deriving DecidableEq, Repr

/-- The concrete models `create` chooses from. -/
inductive ModelClass
  | iocoom
  | simple
  | magic
  | magicPep
  deriving DecidableEq, Repr

/-- `CorePerfModel::create(tile, core_type)`: the class of the model made for
the core `coreType` of a tile whose configured models are `coreModel`
(`getCoreType`) and `pepCoreModel` (`getPepCoreType`), or `none` for `NULL`. An
unknown name fails `LOG_PRINT_ERROR`, which ends the process. -/
def create (coreType : CoreType) (coreModel pepCoreModel : String) :
    Except String (Option ModelClass) :=
  match coreType with
  | .mainCore =>
    if coreModel = "iocoom" then .ok (some .iocoom)
    else if coreModel = "simple" then .ok (some .simple)
    else if coreModel = "magic" then .ok (some .magic)
    else .error "Invalid perf model type: %s"
  | .pepCore =>
    -- "the MCP and TS cores will always have NULL PEP cores"
    if pepCoreModel = "none" then .ok none
    else if pepCoreModel = "magic" then .ok (some .magicPep)
    else .error "Invalid pep perf model type: %s"

/-- The gate of the queue operations: `m_enabled` and
`getEnablePerformanceModeling()`. -/
def isModeling (s : CorePerfModel M) : Bool := s.enabled && cfg.enablePerformanceModeling

/-! ## Enabling -/

/-- `CorePerfModel::enable()`, called from a thread on `currentCoreID`
(`getTileManager()->getCurrentCoreID()`): "MCP perf model should never be enabled". -/
def enable (currentCoreID : Nat) (s : CorePerfModel M) : CorePerfModel M :=
  if currentCoreID = cfg.mcpCoreNum then s else { s with enabled := true }

/-- `CorePerfModel::disable()`. -/
def disable (s : CorePerfModel M) : CorePerfModel M := { s with enabled := false }

/-! ## The queues -/

/-- `queueDynamicInstruction(i)`: a fresh dynamic block holding `i`, or `delete i`. -/
def queueDynamicInstruction (i : Instruction) (s : CorePerfModel M) : CorePerfModel M :=
  if isModeling cfg s then { s with basicBlockQueue := s.basicBlockQueue ++ [⟨true, [i]⟩] } else s

/-- `queueBasicBlock(basic_block)`. -/
def queueBasicBlock (b : BasicBlock) (s : CorePerfModel M) : CorePerfModel M :=
  if isModeling cfg s then { s with basicBlockQueue := s.basicBlockQueue ++ [b] } else s

/-- `pushDynamicInstructionInfo(i)`. -/
def pushDynamicInstructionInfo (f : DynamicInstructionInfo) (s : CorePerfModel M) :
    CorePerfModel M :=
  if isModeling cfg s then { s with dynamicInfoQueue := s.dynamicInfoQueue ++ [f] } else s

/-- `popDynamicInstructionInfo()`: a no-op unless modeling; then two assertions. -/
def popDynamicInstructionInfo (s : CorePerfModel M) : Outcome (CorePerfModel M) Unit :=
  if !isModeling cfg s then .ok () s
  else if ¬ 0 < s.dynamicInfoQueue.length then .fatal "Expected some dynamic info to be available."
  else if ¬ s.dynamicInfoQueue.length < 5000 then .fatal "Dynamic info queue is growing too big."
  else .ok () { s with dynamicInfoQueue := s.dynamicInfoQueue.tail }

/-- `getDynamicInstructionInfo()`: the front fact, which stays queued; throws
`DynamicInstructionInfoNotAvailableException` on an empty queue. Not gated. -/
def getDynamicInstructionInfo (s : CorePerfModel M) :
    Outcome (CorePerfModel M) DynamicInstructionInfo :=
  match s.dynamicInfoQueue with
  | [] => .notAvailable s
  | f :: _ =>
    if ¬ s.dynamicInfoQueue.length < 5000 then .fatal "Dynamic info queue is growing too big."
    else .ok f s

variable {cfg}

theorem getDynamicInstructionInfo_eq_ok {s t : CorePerfModel M} {f : DynamicInstructionInfo} :
    getDynamicInstructionInfo s = .ok f t ↔
      t = s ∧ s.dynamicInfoQueue.head? = some f ∧ s.dynamicInfoQueue.length < 5000 := by
  unfold getDynamicInstructionInfo
  split
  · next hq => simp [hq]
  · next f' tl hq =>
    rw [hq]
    by_cases hc : tl.length + 1 < 5000
    · simp only [List.length_cons, hc, not_true_eq_false, if_false, Outcome.ok.injEq,
        List.head?_cons, Option.some.injEq, and_true]
      constructor <;> rintro ⟨rfl, rfl⟩ <;> exact ⟨rfl, rfl⟩
    · simp [hc]

theorem getDynamicInstructionInfo_eq_notAvailable {s t : CorePerfModel M} :
    getDynamicInstructionInfo s = .notAvailable t ↔ t = s ∧ s.dynamicInfoQueue = [] := by
  unfold getDynamicInstructionInfo
  split
  · next hq => simp [hq, eq_comm]
  · next hq => split_ifs <;> simp [hq]

/-- At the cap, reading a fact is fatal. -/
theorem getDynamicInstructionInfo_of_cap {s : CorePerfModel M} (h : 5000 ≤ s.dynamicInfoQueue.length) :
    getDynamicInstructionInfo s = .fatal "Dynamic info queue is growing too big." := by
  unfold getDynamicInstructionInfo
  split
  · next hq => simp [hq] at h
  · next hq => rw [if_pos (by omega)]

theorem getDynamicInstructionInfo_keeps (s : CorePerfModel M) :
    (getDynamicInstructionInfo s).Keeps (· = s) := by
  unfold getDynamicInstructionInfo
  split
  · rfl
  · split <;> trivial

/-- With the gate closed, `popDynamicInstructionInfo` pops nothing. -/
theorem popDynamicInstructionInfo_keeps_of_closed {s : CorePerfModel M} (hoff : isModeling cfg s = false) :
    (popDynamicInstructionInfo cfg s).Keeps (· = s) := by
  simp [popDynamicInstructionInfo, hoff, Outcome.Keeps]

/-- `popDynamicInstructionInfo` changes the fact queue only. -/
theorem popDynamicInstructionInfo_keeps (s : CorePerfModel M) :
    (popDynamicInstructionInfo cfg s).Keeps fun t => ∃ q, t = { s with dynamicInfoQueue := q } := by
  unfold popDynamicInstructionInfo
  split_ifs
  · exact ⟨s.dynamicInfoQueue, rfl⟩
  all_goals first | trivial | exact ⟨_, rfl⟩

/-- `popDynamicInstructionInfo` either does nothing (the gate is closed) or pops
the front of a queue holding between one and 4999 facts; it never stalls. -/
theorem popDynamicInstructionInfo_eq_ok {s t : CorePerfModel M} {u : Unit} :
    popDynamicInstructionInfo cfg s = .ok u t ↔
      (isModeling cfg s = false ∧ t = s) ∨
      (isModeling cfg s = true ∧ 0 < s.dynamicInfoQueue.length ∧
        s.dynamicInfoQueue.length < 5000 ∧ t = { s with dynamicInfoQueue := s.dynamicInfoQueue.tail }) := by
  unfold popDynamicInstructionInfo
  by_cases hm : isModeling cfg s <;> split_ifs <;> simp_all [@eq_comm _ t]

theorem popDynamicInstructionInfo_ne_notAvailable (s t : CorePerfModel M) :
    popDynamicInstructionInfo cfg s ≠ .notAvailable t := by
  unfold popDynamicInstructionInfo
  split_ifs <;> simp

variable (cfg)

/-! ## Frequency and time -/

/-- `setCycleCount(cycle_count)`, on thread start. -/
def setCycleCount (c : BitVec 64) (s : CorePerfModel M) : CorePerfModel M :=
  { s with checkpointedCycleCount := c, cycleCount := c }

/-- `cycles_elapsed` of `recomputeAverageFrequency`: the cycles since the
checkpoint, a `UInt64` difference converted to a float. -/
def cyclesElapsed (s : CorePerfModel M) : ℚ := (s.cycleCount - s.checkpointedCycleCount).toNat

/-- `total_time_taken` of `recomputeAverageFrequency`. -/
def totalTimeTaken (s : CorePerfModel M) : Option ℚ :=
  Option.map₂ (· + ·) s.totalTime (fdiv (cyclesElapsed s) s.frequency)

/-- `recomputeAverageFrequency()`, on thread exit and on a frequency change:
closes the epoch since the last checkpoint at the current frequency. -/
def recomputeAverageFrequency (s : CorePerfModel M) : CorePerfModel M :=
  let totalCyclesExecuted :=
    Option.map₂ (fun a t => a * t + cyclesElapsed s) s.averageFrequency s.totalTime
  { s with
    averageFrequency := Option.bind totalCyclesExecuted fun c => Option.bind (totalTimeTaken s) (fdiv c)
    totalTime := totalTimeTaken s
    checkpointedCycleCount := s.cycleCount }

@[simp] theorem recomputeAverageFrequency_totalTime (s : CorePerfModel M) :
    (recomputeAverageFrequency s).totalTime = totalTimeTaken s := rfl

@[simp] theorem recomputeAverageFrequency_averageFrequency (s : CorePerfModel M) :
    (recomputeAverageFrequency s).averageFrequency =
      (Option.map₂ (fun a t => a * t + cyclesElapsed s) s.averageFrequency s.totalTime).bind
        fun c => (totalTimeTaken s).bind (fdiv c) := rfl

@[simp] theorem recomputeAverageFrequency_checkpointedCycleCount (s : CorePerfModel M) :
    (recomputeAverageFrequency s).checkpointedCycleCount = s.cycleCount := rfl

@[simp] theorem recomputeAverageFrequency_cycleCount (s : CorePerfModel M) :
    (recomputeAverageFrequency s).cycleCount = s.cycleCount := rfl

@[simp] theorem recomputeAverageFrequency_frequency (s : CorePerfModel M) :
    (recomputeAverageFrequency s).frequency = s.frequency := rfl

/-- `updateInternalVariablesOnFrequencyChange(frequency)`. -/
def updateInternalVariablesOnFrequencyChange (f : ℚ) (s : CorePerfModel M) : CorePerfModel M :=
  { recomputeAverageFrequency s with frequency := f }

/-- What `frequencySummary` reports: the completion time
`(UInt64)((float)m_cycle_count / m_frequency)` and the average frequency. -/
def frequencySummary (s : CorePerfModel M) : Option Nat × Option ℚ :=
  ((fdiv s.cycleCount.toNat s.frequency).map fun t => t.floor.toNat, s.averageFrequency)

end CorePerfModel

end Graphite
