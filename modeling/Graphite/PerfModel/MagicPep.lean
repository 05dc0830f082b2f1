import Graphite.PerfModel.Iterate

/-!
# The magic co-processor model

`MagicPepPerformanceModel` (`magic_pep_performance_model.cc`) costs an
instruction at its static cost if its type is modeled (`RECV`, `SYNC`,
`SPAWN`) and at one cycle otherwise, plus the latency of one fact per memory
operand, which it reads with `getDynamicInstructionInfo`, checks, and pops.

What one call does, given the fact queue:

* `handleInstruction_bundle`: with the instruction's whole bundle at the front
  of the queue (`IsBundle`), the instruction completes, pops exactly that
  bundle and adds `costOf`;
* `handleInstruction_stall`: with an empty queue, an instruction with a memory
  operand stalls and changes nothing;
* `handleInstruction_notAvailable`: in general, a stall leaves the fact queue
  empty and the rest of the model as it was: the facts it held, fewer than
  the instruction's memory operands, were popped by the failed attempt.

`iterate_stall_state` (in `Graphite.PerfModel.Conservation`) lifts the last
to `iterate`: a stall returns the state its loops had reached before the
stalled instruction, with the fact queue emptied. The whole-or-nothing
assumption of the `FIXME` in `getDynamicInstructionInfo` is what makes that
state the one before the instruction.
-/

namespace Graphite

/-- The fields `MagicPepPerformanceModel` adds to `CorePerfModel`. -/
structure MagicPepPerformanceModel.Fields where
  instructionCount : Nat
  deriving DecidableEq, Repr

/-- A `MagicPepPerformanceModel`. -/
abbrev MagicPepPerformanceModel := CorePerfModel MagicPepPerformanceModel.Fields

namespace MagicPepPerformanceModel

open CorePerfModel

variable (cfg : Config)

/-- `MagicPepPerformanceModel::MagicPepPerformanceModel(tile, frequency)`. -/
def init (frequency : ℚ) : MagicPepPerformanceModel := CorePerfModel.init frequency ⟨0⟩

/-- What `outputSummary` reports: the instruction count, then the frequency
summary (and the branch predictor's, which is not modelled). -/
def outputSummary (s : MagicPepPerformanceModel) : Nat × Option Nat × Option ℚ :=
  (s.derived.instructionCount, frequencySummary s)

/-- `isModeled(instruction_type)`. -/
def isModeled : InstructionType → Bool
  | .recv | .sync | .spawn => true
  | _ => false

/-- The latency of the fact read for a memory operand, after the assertion on
its type: `MEMORY_READ` for a read, `MEMORY_WRITE` otherwise. -/
def memoryLatency : Direction → DynamicInstructionInfo → Except String (BitVec 64)
  | .read, .memoryRead _ latency => .ok latency
  | .read, _ => .error "Expected memory read info, got: %d."
  | .write, .memoryWrite _ latency => .ok latency
  | .write, _ => .error "Expected memory write info, got: %d."

/-- The loop of `handleInstruction` over the operands, accumulating `cost`. -/
def handleOperands : List Operand → BitVec 64 → MagicPepPerformanceModel →
    Outcome MagicPepPerformanceModel (BitVec 64)
  | [], cost, s => .ok cost s
  | o :: os, cost, s =>
    if o.type = .memory then
      (getDynamicInstructionInfo s).bind fun info s =>
        match memoryLatency o.direction info with
        | .error msg => .fatal msg
        | .ok latency =>
          (popDynamicInstructionInfo cfg s).bind fun _ s => handleOperands os (cost + latency) s
    else handleOperands os cost s

/-- `MagicPepPerformanceModel::handleInstruction(instruction)`. -/
def handleInstruction (s : MagicPepPerformanceModel) (ins : Instruction) :
    Outcome MagicPepPerformanceModel Unit :=
  (handleOperands cfg ins.operands 0 s).bind fun cost s =>
    .ok () { s with
      derived := { instructionCount := s.derived.instructionCount + 1 }
      cycleCount := s.cycleCount + (cost + if isModeled ins.type then ins.cost else 1) }

/-- `iterate()` on a magic co-processor model. -/
def iterate (s : MagicPepPerformanceModel) : Except String MagicPepPerformanceModel :=
  CorePerfModel.iterate (handleInstruction cfg) s

/-! ## Bundles and costs -/

/-- The memory operands of an instruction, in operand order. -/
def memoryOperands (ins : Instruction) : List Operand := ins.operands.filter (·.type = .memory)

/-- Whether an instruction reads dynamic information at all. -/
def hasMemoryOperand (ins : Instruction) : Bool := ins.operands.any (·.type = .memory)

/-- A fact of the kind a memory operand of direction `d` asserts. -/
def Matches : Direction → DynamicInstructionInfo → Bool
  | .read, .memoryRead .. | .write, .memoryWrite .. => true
  | _, _ => false

/-- The latency of a memory fact. -/
def latency : DynamicInstructionInfo → BitVec 64
  | .memoryRead _ l | .memoryWrite _ l => l
  | .branch .. => 0

/-- `fs` is a bundle of `ins`: one fact per memory operand, in operand order,
each of the kind the operand asserts. -/
def IsBundle (ins : Instruction) (fs : List DynamicInstructionInfo) : Prop :=
  List.Forall₂ (fun o f => Matches o.direction f = true) (memoryOperands ins) fs

instance (ins : Instruction) (fs : List DynamicInstructionInfo) : Decidable (IsBundle ins fs) :=
  inferInstanceAs (Decidable (List.Forall₂ _ _ _))

/-- The cycles `handleInstruction` charges for `ins` with the bundle `fs`. -/
def costOf (ins : Instruction) (fs : List DynamicInstructionInfo) : BitVec 64 :=
  (fs.map latency).sum + if isModeled ins.type then ins.cost else 1

theorem memoryLatency_of_matches {d : Direction} {f : DynamicInstructionInfo}
    (h : Matches d f = true) : memoryLatency d f = .ok (latency f) := by
  cases d <;> cases f <;> simp_all [Matches, memoryLatency, latency]

theorem memoryOperands_eq_nil {ins : Instruction} :
    memoryOperands ins = [] ↔ hasMemoryOperand ins = false := by
  simp [memoryOperands, hasMemoryOperand, List.filter_eq_nil_iff]

/-- An instruction without memory operands has the empty bundle only. -/
theorem IsBundle.eq_nil {ins : Instruction} {fs : List DynamicInstructionInfo}
    (h : IsBundle ins fs) (hm : hasMemoryOperand ins = false) : fs = [] := by
  rw [IsBundle, memoryOperands_eq_nil.mpr hm] at h
  exact List.forall₂_nil_left_iff.mp h

/-! ## One instruction -/

variable {cfg}

/-- With the gate open and the bundle of the remaining operands at the front of
a queue below the cap, the operand loop pops the bundle and adds its latencies. -/
theorem handleOperands_bundle {s : MagicPepPerformanceModel} (hon : isModeling cfg s = true)
    {ops : List Operand} {fs rest : List DynamicInstructionInfo} (cost : BitVec 64)
    (hb : List.Forall₂ (fun o f => Matches o.direction f = true) (ops.filter (·.type = .memory)) fs)
    (hq : s.dynamicInfoQueue = fs ++ rest) (hcap : s.dynamicInfoQueue.length < 5000) :
    handleOperands cfg ops cost s = .ok (cost + (fs.map latency).sum) { s with dynamicInfoQueue := rest } := by
  induction ops generalizing s cost fs with
  | nil =>
    obtain rfl := List.forall₂_nil_left_iff.mp hb
    cases s
    simp_all [handleOperands]
  | cons o os ih =>
    by_cases ho : o.type = .memory
    · rw [List.filter_cons_of_pos (by simpa using ho)] at hb
      obtain ⟨f, fs, hf, hbs, rfl⟩ := List.forall₂_cons_left_iff.mp hb
      have hlen : fs.length + rest.length < 4999 := by simp [hq] at hcap; omega
      have hget : getDynamicInstructionInfo s = .ok f s := by
        simp [getDynamicInstructionInfo, hq, hlen]
      have hpop : popDynamicInstructionInfo cfg s =
          .ok () { s with dynamicInfoQueue := fs ++ rest } := by
        simp [popDynamicInstructionInfo, hon, hq, hlen]
      have hrest := ih (show isModeling cfg { s with dynamicInfoQueue := fs ++ rest } = true from hon)
        (cost + latency f) hbs rfl (by simp; omega)
      rw [handleOperands, if_pos ho, hget, Outcome.ok_bind, memoryLatency_of_matches hf]
      simp [hpop, hrest, add_assoc]
    · rw [List.filter_cons_of_neg (by simpa using ho)] at hb
      rw [handleOperands, if_neg ho]
      exact ih hon cost hb hq hcap

/-- `handleInstruction` with the whole bundle of `ins` at the front of the queue. -/
theorem handleInstruction_bundle {s : MagicPepPerformanceModel} (hon : isModeling cfg s = true)
    {ins : Instruction} {fs rest : List DynamicInstructionInfo} (hb : IsBundle ins fs)
    (hq : s.dynamicInfoQueue = fs ++ rest) (hcap : s.dynamicInfoQueue.length < 5000) :
    handleInstruction cfg s ins = .ok () { s with
      dynamicInfoQueue := rest
      cycleCount := s.cycleCount + costOf ins fs
      derived := { instructionCount := s.derived.instructionCount + 1 } } := by
  rw [handleInstruction, handleOperands_bundle hon 0 hb hq hcap, Outcome.ok_bind, costOf, zero_add]

/-- With no fact queued, the operand loop stalls at the first memory operand. -/
theorem handleOperands_stall {s : MagicPepPerformanceModel} (hq : s.dynamicInfoQueue = [])
    {ops : List Operand} (hm : ops.any (·.type = .memory) = true) (cost : BitVec 64) :
    handleOperands cfg ops cost s = .notAvailable s := by
  induction ops generalizing cost with
  | nil => simp at hm
  | cons o os ih =>
    by_cases ho : o.type = .memory
    · simp [handleOperands, ho, getDynamicInstructionInfo, hq]
    · rw [handleOperands, if_neg ho]
      exact ih (by simpa [ho] using hm) cost

/-- With no fact queued, an instruction with a memory operand stalls. -/
theorem handleInstruction_stall {s : MagicPepPerformanceModel} (hq : s.dynamicInfoQueue = [])
    {ins : Instruction} (hm : hasMemoryOperand ins = true) :
    handleInstruction cfg s ins = .notAvailable s := by
  rw [handleInstruction, handleOperands_stall hq hm, Outcome.notAvailable_bind]

/-- At the cap, the operand loop fails at the first memory operand. -/
theorem handleOperands_cap {s : MagicPepPerformanceModel} (hcap : 5000 ≤ s.dynamicInfoQueue.length)
    {ops : List Operand} (hm : ops.any (·.type = .memory) = true) (cost : BitVec 64) :
    handleOperands cfg ops cost s = .fatal "Dynamic info queue is growing too big." := by
  induction ops generalizing cost with
  | nil => simp at hm
  | cons o os ih =>
    by_cases ho : o.type = .memory
    · rw [handleOperands, if_pos ho, getDynamicInstructionInfo_of_cap hcap, Outcome.fatal_bind]
    · rw [handleOperands, if_neg ho]
      exact ih (by simpa [ho] using hm) cost

/-- At the cap, an instruction with a memory operand fails. -/
theorem handleInstruction_cap {s : MagicPepPerformanceModel} (hcap : 5000 ≤ s.dynamicInfoQueue.length)
    {ins : Instruction} (hm : hasMemoryOperand ins = true) :
    handleInstruction cfg s ins = .fatal "Dynamic info queue is growing too big." := by
  rw [handleInstruction, handleOperands_cap hcap hm, Outcome.fatal_bind]

/-- The operand loop changes the fact queue only. -/
theorem handleOperands_keeps (ops : List Operand) (cost : BitVec 64) (s : MagicPepPerformanceModel) :
    (handleOperands cfg ops cost s).Keeps fun t => ∃ q, t = { s with dynamicInfoQueue := q } := by
  induction ops generalizing cost s with
  | nil => exact ⟨s.dynamicInfoQueue, rfl⟩
  | cons o os ih =>
    rw [handleOperands]
    split
    · refine Outcome.keeps_bind (getDynamicInstructionInfo_keeps s) (fun _ t ht => ?_)
        (fun t ht => ⟨s.dynamicInfoQueue, ht⟩)
      subst ht
      split
      · trivial
      · refine Outcome.keeps_bind (popDynamicInstructionInfo_keeps t) (fun _ u ⟨q, hu⟩ => ?_) fun _ h => h
        subst hu
        exact (ih _ _).mono fun _ ⟨q', h⟩ => ⟨q', h⟩
    · exact ih cost s

/-- `handleInstruction` changes the fact queue, the cycle count and the
instruction count only. -/
theorem handleInstruction_keeps (s : MagicPepPerformanceModel) (ins : Instruction) :
    (handleInstruction cfg s ins).Keeps fun t =>
      ∃ q c n, t = { s with dynamicInfoQueue := q, cycleCount := c, derived := ⟨n⟩ } :=
  Outcome.keeps_bind (handleOperands_keeps _ _ s) (fun _ t ⟨q, ht⟩ => by subst ht; exact ⟨q, _, _, rfl⟩)
    (fun t ⟨q, ht⟩ => ⟨q, s.cycleCount, s.derived.instructionCount, ht⟩)

/-- With the gate closed, the operand loop changes nothing: it reads the
front fact for every memory operand and pops none. -/
theorem handleOperands_keeps_of_closed {s : MagicPepPerformanceModel} (hoff : isModeling cfg s = false)
    (ops : List Operand) (cost : BitVec 64) : (handleOperands cfg ops cost s).Keeps (· = s) := by
  induction ops generalizing cost with
  | nil => rfl
  | cons o os ih =>
    rw [handleOperands]
    split
    · refine Outcome.keeps_bind (getDynamicInstructionInfo_keeps s) (fun _ t ht => ?_) (fun _ h => h)
      subst ht
      split
      · trivial
      · exact Outcome.keeps_bind (popDynamicInstructionInfo_keeps_of_closed hoff)
          (fun _ t ht => ht ▸ ih _) (fun _ h => h)
    · exact ih cost

/-- With the gate closed, `handleInstruction` leaves the queues, the cursor and
the gate as they are (it still charges the cycles). -/
theorem handleInstruction_keeps_of_closed {s : MagicPepPerformanceModel} (hoff : isModeling cfg s = false)
    (ins : Instruction) :
    (handleInstruction cfg s ins).Keeps fun t => t.dynamicInfoQueue = s.dynamicInfoQueue ∧
      t.basicBlockQueue = s.basicBlockQueue ∧ t.currentInsIndex = s.currentInsIndex ∧ t.enabled = s.enabled :=
  Outcome.keeps_bind (handleOperands_keeps_of_closed hoff _ _)
    (fun _ t ht => by subst ht; exact ⟨rfl, rfl, rfl, rfl⟩) (fun t ht => by subst ht; exact ⟨rfl, rfl, rfl, rfl⟩)

/-- A stall in the operand loop leaves only the fact queue changed, and empty;
the queue held fewer facts than the memory operands. -/
theorem handleOperands_notAvailable {ops : List Operand} {cost : BitVec 64}
    {s s' : MagicPepPerformanceModel} (h : handleOperands cfg ops cost s = .notAvailable s') :
    s' = { s with dynamicInfoQueue := [] } ∧
      s.dynamicInfoQueue.length < (ops.filter (·.type = .memory)).length := by
  induction ops generalizing cost s with
  | nil => cases h
  | cons o os ih =>
    by_cases ho : o.type = .memory
    · rw [List.filter_cons_of_pos (by simpa using ho), List.length_cons]
      rw [handleOperands, if_pos ho] at h
      rcases Outcome.bind_eq_notAvailable h with h₁ | ⟨f, t, hget, h₁⟩
      · obtain ⟨rfl, hq⟩ := getDynamicInstructionInfo_eq_notAvailable.mp h₁
        exact ⟨by rw [← hq], by simp [hq]⟩
      obtain ⟨rfl, -⟩ := getDynamicInstructionInfo_eq_ok.mp hget
      split at h₁
      · cases h₁
      rcases Outcome.bind_eq_notAvailable h₁ with h₂ | ⟨_, t, hpop, h₂⟩
      · exact absurd h₂ (popDynamicInstructionInfo_ne_notAvailable _ _)
      obtain ⟨rfl, hlt⟩ := ih h₂
      rcases popDynamicInstructionInfo_eq_ok.mp hpop with ⟨-, rfl⟩ | ⟨-, hpos, -, rfl⟩
      · exact ⟨rfl, by omega⟩
      · simp only [List.length_tail] at hlt
        exact ⟨rfl, by omega⟩
    · rw [List.filter_cons_of_neg (by simpa using ho)]
      rw [handleOperands, if_neg ho] at h
      exact ih h

/-- A stalled `handleInstruction` leaves only the fact queue changed, and empty. -/
theorem handleInstruction_notAvailable {s s' : MagicPepPerformanceModel} {ins : Instruction}
    (h : handleInstruction cfg s ins = .notAvailable s') :
    s' = { s with dynamicInfoQueue := [] } ∧ s.dynamicInfoQueue.length < (memoryOperands ins).length := by
  rcases Outcome.bind_eq_notAvailable h with h | ⟨_, _, _, h⟩
  · exact handleOperands_notAvailable h
  · cases h

end MagicPepPerformanceModel

end Graphite
