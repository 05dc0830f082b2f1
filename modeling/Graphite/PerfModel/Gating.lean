import Graphite.PerfModel.Run

/-!
# The enable gate

`enable`, `disable` and the gate of the queue operations
(`m_enabled && getEnablePerformanceModeling()`).

What the gate does ensure (`run_drains`): while it is closed, and no `enable`
takes effect, no call adds a block or a fact, and none consumes a fact;
`iterate` still drains the blocks queued before and still charges their
cycles, reading the front fact for every memory operand, since
`getDynamicInstructionInfo` and `iterate` are not gated and
`popDynamicInstructionInfo` is.

What it does not: `disable` clears only the flag, so work queued while enabled
stays queued while disabled (`run_disable_with_queued_work`). And the guard of
`enable` compares the core of the calling thread, not the model's tile, with the
MCP's core, so a thread on any other core enables the MCP tile's model
(`switchModels_mcp_tile_enabled`).
-/

namespace Graphite.MagicPepPerformanceModel

open CorePerfModel

variable {cfg : Config}

/-! ## The gate closed -/

/-- With the gate closed, `iterate` keeps the facts and the gate, and only
drains blocks. -/
theorem iterate_of_closed {s t : MagicPepPerformanceModel} (hoff : isModeling cfg s = false)
    (h : iterate cfg s = .ok t) :
    t.dynamicInfoQueue = s.dynamicInfoQueue ∧ t.basicBlockQueue <:+ s.basicBlockQueue ∧
      t.enabled = s.enabled := by
  refine @iterateBlocks_keeps _ (handleInstruction cfg) (fun t => t.dynamicInfoQueue = s.dynamicInfoQueue ∧
    t.basicBlockQueue <:+ s.basicBlockQueue ∧ t.enabled = s.enabled) s.basicBlockQueue ?_ ?_ ?_ s t
    ⟨rfl, List.suffix_refl _, rfl⟩ h
  · rintro u i ⟨hq, hb, he⟩
    have hoff' : isModeling cfg u = false := by simpa [isModeling, he] using hoff
    exact (handleInstruction_keeps_of_closed hoff' i).mono
      fun _ hv => ⟨hv.1.trans hq, hv.2.1 ▸ hb, hv.2.2.2.trans he⟩
  · exact fun _ _ hu => hu
  · exact fun _ _ hu hs => ⟨hu.1, hs, hu.2.2⟩

/-- `t` has the facts of `s` and a suffix of its blocks, with the gate closed. -/
def Drains (cfg : Config) (s t : MagicPepPerformanceModel) : Prop :=
  t.dynamicInfoQueue = s.dynamicInfoQueue ∧ t.basicBlockQueue <:+ s.basicBlockQueue ∧
    isModeling cfg t = false

theorem Drains.trans {s t u : MagicPepPerformanceModel} (h₁ : Drains cfg s t) (h₂ : Drains cfg t u) :
    Drains cfg s u :=
  ⟨h₂.1.trans h₁.1, h₂.2.1.trans h₁.2.1, h₂.2.2⟩

/-- One call with the gate closed, other than an `enable` from a core other
than the MCP's. -/
theorem step_drains {s t : MagicPepPerformanceModel} {o : Op} (hoff : isModeling cfg s = false)
    (ho : ∀ c, o = .enable c → c = cfg.mcpCoreNum) (h : step cfg o s = .ok t) : Drains cfg s t := by
  cases o with
  | enable c =>
    cases h
    simp [enable, ho c rfl, Drains, hoff, List.suffix_refl]
  | disable => cases h; exact ⟨rfl, List.suffix_refl _, by simp [isModeling, disable]⟩
  | queueDynamicInstruction | queueBasicBlock | pushDynamicInstructionInfo =>
    cases h
    simp [queueDynamicInstruction, queueBasicBlock, pushDynamicInstructionInfo, hoff, Drains,
      List.suffix_refl]
  | popDynamicInstructionInfo =>
    obtain rfl := (popDynamicInstructionInfo_keeps_of_closed hoff).of_state h
    exact ⟨rfl, List.suffix_refl _, hoff⟩
  | getDynamicInstructionInfo =>
    obtain rfl := (getDynamicInstructionInfo_keeps s).of_state h
    exact ⟨rfl, List.suffix_refl _, hoff⟩
  | iterate =>
    obtain ⟨hq, hb, he⟩ := iterate_of_closed hoff h
    exact ⟨hq, hb, by simpa [isModeling, he] using hoff⟩

/-- While the gate is closed, and no `enable` comes from a core other than the
MCP's, a run adds no block and no fact, and consumes no fact. -/
theorem run_drains {ops : List Op} {s t : MagicPepPerformanceModel} (hoff : isModeling cfg s = false)
    (hops : ∀ c, Op.enable c ∈ ops → c = cfg.mcpCoreNum) (h : run cfg ops s = .ok t) : Drains cfg s t := by
  induction ops generalizing s with
  | nil => cases h; exact ⟨rfl, List.suffix_refl _, hoff⟩
  | cons o os ih =>
    rw [run] at h
    split at h
    · next u hu =>
      have h₁ := step_drains hoff (fun c hc => hops c (hc ▸ List.mem_cons_self _ _)) hu
      exact h₁.trans (ih h₁.2.2 (fun c hc => hops c (List.mem_cons_of_mem _ hc)) h)
    · cases h

/-- From construction, with the gate closed, a run of a queued block, a pushed
fact and an `iterate` leaves the model as it was. -/
theorem run_drains_closed_from_init :
    Drains ⟨true, 1, 1, fun _ => [0, 1], 1⟩ (init 1) (init 1) :=
  @run_drains ⟨true, 1, 1, fun _ => [0, 1], 1⟩
    [.queueBasicBlock ⟨false, []⟩, .pushDynamicInstructionInfo (.memoryRead 0 5), .iterate]
    (init 1) (init 1) rfl (by simp) rfl

/-! ## `disable` with work queued -/

/-- From construction, with the MCP on core 1: enabled from core 0, two blocks
queued and one read fact pushed, then disabled. The model is disabled with
both queues non-empty, and the next `iterate` charges 5 + 5 + 1 cycles for an
instruction of two reads: it reads the one fact twice and never pops it. -/
theorem run_disable_with_queued_work :
    let b : BasicBlock := ⟨false, [⟨.generic, [⟨.memory, .read⟩, ⟨.memory, .read⟩], 0⟩]⟩
    run ⟨true, 1, 1, fun _ => [0, 1], 1⟩
      [.enable 0, .queueBasicBlock b, .queueBasicBlock ⟨false, []⟩,
        .pushDynamicInstructionInfo (.memoryRead 0 5), .disable, .iterate] (init 1) =
      .ok { init 1 with
        basicBlockQueue := [⟨false, []⟩]
        dynamicInfoQueue := [.memoryRead 0 5]
        cycleCount := 11
        derived := ⟨1⟩ } := rfl

end Graphite.MagicPepPerformanceModel

namespace Graphite.CorePerfModel

/-! ## The models of all tiles -/

/-- An `enable` or a `disable` of the model of tile `tile`; `enable` is made by
a thread on core `currentCoreID`. -/
inductive SwitchOp
  | enable (tile currentCoreID : Nat)
  | disable (tile : Nat)
  deriving DecidableEq, Repr

variable {M : Type} (cfg : Config)

/-- One call, on the model of its tile. -/
def switchModel (ms : Nat → CorePerfModel M) : SwitchOp → Nat → CorePerfModel M
  | .enable tile c => Function.update ms tile (enable cfg c (ms tile))
  | .disable tile => Function.update ms tile (disable (ms tile))

/-- The calls `ops`, in order, on the models of all tiles. -/
def switchModels (ops : List SwitchOp) (ms : Nat → CorePerfModel M) : Nat → CorePerfModel M :=
  ops.foldl (switchModel cfg) ms

/-- With the MCP on core 1, the thread on core 0 enables the MCP tile's model. -/
theorem switchModels_mcp_tile_enabled :
    (switchModels ⟨true, 1, 1, fun _ => [0, 1], 1⟩ [.enable 1 0]
      (fun _ => MagicPepPerformanceModel.init 1) 1).enabled = true := rfl

end Graphite.CorePerfModel
