import Graphite.PerfModel.StallResume
import Mathlib.Logic.Relation

/-!
# Nothing queued is lost, reordered or costed twice

Over every run of the public calls of a `MagicPepPerformanceModel`, in any
order, with the gate opening and closing and `iterate` stalling anywhere:

* `run_facts_fifo`: the fact queue is a FIFO. Facts join it only at the back,
  as pushed and in push order, and leave it only at the front; while the gate
  stays open no push is dropped.
* `run_instructions_once`: so is the block queue, and `iterate` never drains
  its last block. The instructions costed are the front of those queued, in
  order, and `m_instruction_count` counts each once: none is skipped and none
  is costed twice, across any number of stalls.
* `iterate_stops`: `iterate` returns only with at most one block queued, or
  stalled on an instruction with a memory operand and no fact left
  (`Stopped`); so a second `iterate` with no call in between changes nothing.
* `iterate_stall_state`: what `iterate` returns is a state its loops reach
  (`IterateStep`), or a stall, which returns the state the loops had reached
  before the stalled instruction with only the fact queue changed, and
  emptied.

The instructions not yet costed are `queuedInstructions`: the head block from
the cursor on, then the other blocks. The cursor must be 0 whenever no block is
queued (`CursorAtStart`): a block queued then would be entered mid-way. Every
call keeps that, and `Moves` says what one call, and so a run, does to the
queues. `iterate` is read one pass of its loops at a time: `iterateBlocks_reaches`
gives the passes it makes, and each moves the queues (`iterateStep_moves`).
-/

namespace Graphite

theorem CorePerfModel.iterateInstructions_ne_abortInstruction {M : Type}
    (handleInstruction : CorePerfModel M → Instruction → Outcome (CorePerfModel M) Unit)
    (is : List Instruction) (s t : CorePerfModel M) :
    iterateInstructions handleInstruction is s ≠ .abortInstruction t := by
  induction is generalizing s with
  | nil => simp
  | cons i is ih =>
    rw [iterateInstructions]
    split
    case h_1 | h_2 => exact ih _
    all_goals simp

theorem suffix_append_right {α : Type} {l₁ l₂ : List α} (h : l₁ <:+ l₂) (r : List α) :
    l₁ ++ r <:+ l₂ ++ r := by
  obtain ⟨c, rfl⟩ := h
  exact ⟨c, (List.append_assoc _ _ _).symm⟩

/-- Past the instructions `pre` a loop completed from cursor `c`. -/
theorem drop_add_length {α : Type} {l pre rest : List α} {c : Nat} (h : l.drop c = pre ++ rest) :
    l.drop (c + pre.length) = rest := by
  rw [← List.drop_drop, h, List.drop_left]

namespace MagicPepPerformanceModel

open CorePerfModel

variable {cfg : Config}

/-! ## One instruction -/

/-- `popDynamicInstructionInfo` only pops the front fact. -/
theorem popDynamicInstructionInfo_suffix (s : MagicPepPerformanceModel) :
    (popDynamicInstructionInfo cfg s).Keeps fun t =>
      ∃ q, q <:+ s.dynamicInfoQueue ∧ t = { s with dynamicInfoQueue := q } := by
  unfold popDynamicInstructionInfo
  split_ifs
  · exact ⟨_, List.suffix_refl _, rfl⟩
  all_goals first | trivial | exact ⟨_, List.tail_suffix _, rfl⟩

/-- The operand loop only pops facts. -/
theorem handleOperands_suffix (ops : List Operand) (cost : BitVec 64) (s : MagicPepPerformanceModel) :
    (handleOperands cfg ops cost s).Keeps fun t =>
      ∃ q, q <:+ s.dynamicInfoQueue ∧ t = { s with dynamicInfoQueue := q } := by
  induction ops generalizing cost s with
  | nil => exact ⟨_, List.suffix_refl _, rfl⟩
  | cons o os ih =>
    rw [handleOperands]
    split
    · refine Outcome.keeps_bind (getDynamicInstructionInfo_keeps s) (fun _ t ht => ?_)
        (fun t ht => ⟨_, List.suffix_refl _, ht⟩)
      subst ht
      split
      · trivial
      · refine Outcome.keeps_bind (popDynamicInstructionInfo_suffix _) (fun _ u ⟨q, hq, hu⟩ => ?_)
          fun _ h => h
        subst hu
        exact (ih _ _).mono fun _ ⟨q', hq', h⟩ => ⟨q', hq'.trans hq, h⟩
    · exact ih cost s

/-- The operand loop never aborts the instruction. -/
theorem handleOperands_ne_abortInstruction (ops : List Operand) (cost : BitVec 64)
    (s t : MagicPepPerformanceModel) : handleOperands cfg ops cost s ≠ .abortInstruction t := by
  induction ops generalizing cost s with
  | nil => simp [handleOperands]
  | cons o os ih =>
    rw [handleOperands]
    split
    · unfold getDynamicInstructionInfo
      split
      · simp
      split
      · simp
      rw [Outcome.ok_bind]
      split
      · simp
      unfold popDynamicInstructionInfo
      split_ifs <;> simp [ih]
    · exact ih cost s

/-- A completed instruction popped facts, charged cycles and counted one more. -/
theorem handleInstruction_ok {s t : MagicPepPerformanceModel} {ins : Instruction}
    (h : handleInstruction cfg s ins = .ok () t) :
    ∃ q c, q <:+ s.dynamicInfoQueue ∧
      t = { s with
        dynamicInfoQueue := q
        cycleCount := c
        derived := ⟨s.derived.instructionCount + 1⟩ } := by
  have hk := @handleOperands_suffix cfg ins.operands 0 s
  rw [handleInstruction] at h
  cases hop : handleOperands cfg ins.operands 0 s with
  | ok cost u =>
    rw [hop] at h hk
    obtain ⟨q, hq, rfl⟩ := hk
    cases h
    exact ⟨q, _, hq, rfl⟩
  | abortInstruction | notAvailable | fatal => rw [hop] at h; cases h

theorem handleInstruction_ne_abortInstruction (s t : MagicPepPerformanceModel) (ins : Instruction) :
    handleInstruction cfg s ins ≠ .abortInstruction t := by
  rw [handleInstruction]
  cases hop : handleOperands cfg ins.operands 0 s with
  | abortInstruction u => exact absurd hop (handleOperands_ne_abortInstruction _ _ _ _)
  | ok | notAvailable | fatal => simp

/-! ## What a call does to the queues -/

/-- The instructions queued and not yet costed: the head block from the
cursor on, then the other blocks. -/
def queuedInstructions (s : MagicPepPerformanceModel) : List Instruction :=
  match s.basicBlockQueue with
  | [] => []
  | b :: q => b.instructions.drop s.currentInsIndex ++ q.flatMap BasicBlock.instructions

/-- The cursor is 0 whenever no block is queued. -/
def CursorAtStart (s : MagicPepPerformanceModel) : Prop :=
  s.basicBlockQueue = [] → s.currentInsIndex = 0

/-- A queue entered at its start. -/
theorem queuedInstructions_start (s : MagicPepPerformanceModel) (q : List BasicBlock) :
    queuedInstructions { s with basicBlockQueue := q, currentInsIndex := 0 } =
      q.flatMap BasicBlock.instructions := by
  cases q <;> simp [queuedInstructions]

/-- Blocks queued at the back add their instructions at the back. -/
theorem queuedInstructions_append {s : MagicPepPerformanceModel} (h0 : CursorAtStart s)
    (bs : List BasicBlock) :
    queuedInstructions { s with basicBlockQueue := s.basicBlockQueue ++ bs } =
      queuedInstructions s ++ bs.flatMap BasicBlock.instructions := by
  unfold queuedInstructions
  cases hq : s.basicBlockQueue with
  | nil => cases bs <;> simp [h0 hq]
  | cons b q => simp

/-- How the calls from `s` to `t` moved the queues: `blocks` and `facts`
joined at the back, blocks and facts left at the front only, the last block
stayed, and the instructions costed, `done`, are the front of those queued. -/
structure Moves (s t : MagicPepPerformanceModel) (blocks : List BasicBlock)
    (facts : List DynamicInstructionInfo) : Prop where
  facts_fifo : t.dynamicInfoQueue <:+ s.dynamicInfoQueue ++ facts
  blocks_fifo : t.basicBlockQueue <:+ s.basicBlockQueue ++ blocks
  last_stays : t.basicBlockQueue = [] → s.basicBlockQueue ++ blocks = []
  cursor : CursorAtStart s → CursorAtStart t
  costed : CursorAtStart s → ∃ done,
    queuedInstructions s ++ blocks.flatMap BasicBlock.instructions = done ++ queuedInstructions t ∧
      t.derived.instructionCount = s.derived.instructionCount + done.length

theorem Moves.refl (s : MagicPepPerformanceModel) : Moves s s [] [] :=
  ⟨by simp, by simp, by simp, id, fun _ => ⟨[], by simp, rfl⟩⟩

theorem Moves.trans {s t u : MagicPepPerformanceModel} {b₁ b₂ : List BasicBlock}
    {f₁ f₂ : List DynamicInstructionInfo} (h₁ : Moves s t b₁ f₁) (h₂ : Moves t u b₂ f₂) :
    Moves s u (b₁ ++ b₂) (f₁ ++ f₂) where
  facts_fifo := by
    rw [← List.append_assoc]
    exact h₂.facts_fifo.trans (suffix_append_right h₁.facts_fifo _)
  blocks_fifo := by
    rw [← List.append_assoc]
    exact h₂.blocks_fifo.trans (suffix_append_right h₁.blocks_fifo _)
  last_stays hu := by
    obtain ⟨ht, hb₂⟩ := List.append_eq_nil.mp (h₂.last_stays hu)
    simp [List.append_eq_nil.mp (h₁.last_stays ht), hb₂]
  cursor hs := h₂.cursor (h₁.cursor hs)
  costed hs := by
    obtain ⟨d₁, hd₁, hn₁⟩ := h₁.costed hs
    obtain ⟨d₂, hd₂, hn₂⟩ := h₂.costed (h₁.cursor hs)
    refine ⟨d₁ ++ d₂, ?_, by rw [hn₂, hn₁, List.length_append, Nat.add_assoc]⟩
    rw [List.flatMap_append, ← List.append_assoc, hd₁, List.append_assoc, hd₂, List.append_assoc]

/-- A call that pops facts at most, and leaves blocks, cursor and count. -/
theorem Moves.of_facts {s t : MagicPepPerformanceModel}
    (hq : t.dynamicInfoQueue <:+ s.dynamicInfoQueue) (hb : t.basicBlockQueue = s.basicBlockQueue)
    (hc : t.currentInsIndex = s.currentInsIndex)
    (hn : t.derived.instructionCount = s.derived.instructionCount) : Moves s t [] [] where
  facts_fifo := by simpa using hq
  blocks_fifo := by simp [hb]
  last_stays := by simp [hb]
  cursor h0 := by rw [CursorAtStart, hb, hc]; exact h0
  costed _ := ⟨[], by simp [queuedInstructions, hb, hc], by simp [hn]⟩

/-- Blocks queued at the back. -/
theorem Moves.queue (s : MagicPepPerformanceModel) (bs : List BasicBlock) :
    Moves s { s with basicBlockQueue := s.basicBlockQueue ++ bs } bs [] where
  facts_fifo := by simp
  blocks_fifo := List.suffix_refl _
  last_stays := id
  cursor h0 hq := h0 (List.append_eq_nil.mp hq).1
  costed h0 := ⟨[], by rw [queuedInstructions_append h0, List.nil_append], rfl⟩

/-- Facts pushed at the back. -/
theorem Moves.push (s : MagicPepPerformanceModel) (fs : List DynamicInstructionInfo) :
    Moves s { s with dynamicInfoQueue := s.dynamicInfoQueue ++ fs } [] fs where
  facts_fifo := List.suffix_refl _
  blocks_fifo := by simp
  last_stays := by simp
  cursor := id
  costed _ := ⟨[], by simp [queuedInstructions], rfl⟩

/-! ## `iterate`, one pass at a time -/

/-- One pass of the loops of `iterate` moves the queues as a call does, and
keeps the gate. -/
theorem iterateStep_moves {s t : MagicPepPerformanceModel} (h : IterateStep (handleInstruction cfg) s t) :
    Moves s t [] [] ∧ t.enabled = s.enabled := by
  cases h with
  | @next _ i hi h =>
    -- the next instruction completes: the cursor moves past it
    obtain ⟨b, q, post, hq, -, hdrop⟩ := nextInstruction_eq_some.mp hi
    rcases h with hu | hu
    · obtain ⟨_, _, hdq, rfl⟩ := handleInstruction_ok hu
      have hpost : b.instructions.drop (s.currentInsIndex + 1) = post :=
        drop_add_length (show _ = [i] ++ post from hdrop)
      refine ⟨⟨by simpa using hdq, by simp, by simp [hq], fun _ h => by simp [hq] at h,
        fun _ => ⟨[i], ?_, rfl⟩⟩, rfl⟩
      simp [queuedInstructions, hq, hdrop, hpost]
    · exact absurd hu (handleInstruction_ne_abortInstruction _ _ _)
  | pop hq hne hdone =>
    -- the head block is finished and popped
    refine ⟨⟨by simp, by rw [hq, List.append_nil]; exact List.suffix_cons _ _, fun h => absurd h hne,
      fun _ _ => rfl, fun _ => ⟨[], ?_, rfl⟩⟩, rfl⟩
    rw [List.flatMap_nil, List.append_nil, queuedInstructions_start]
    simp [queuedInstructions, hq, hdone]

/-- Passes of the loops of `iterate` move the queues as a call does, and keep
the gate. -/
theorem iterateSteps_moves {s t : MagicPepPerformanceModel}
    (h : Relation.ReflTransGen (IterateStep (handleInstruction cfg)) s t) :
    Moves s t [] [] ∧ t.enabled = s.enabled := by
  induction h with
  | refl => exact ⟨.refl _, rfl⟩
  | tail _ hstep ih =>
    obtain ⟨hm, he⟩ := iterateStep_moves hstep
    exact ⟨ih.1.trans hm, he.trans ih.2⟩

/-- The instruction loop run to its end is passes of the loops of `iterate`,
from a state whose head block holds the loop's instructions at the cursor: the
block queue stays, and the cursor moves past them. -/
theorem iterateInstructions_reaches {b : BasicBlock} {q : List BasicBlock} {is rest : List Instruction}
    {s t : MagicPepPerformanceModel} (h : iterateInstructions (handleInstruction cfg) is s = .ok () t)
    (hq : s.basicBlockQueue = b :: q) (hne : q ≠ []) (his : b.instructions.drop s.currentInsIndex = is ++ rest) :
    Relation.ReflTransGen (IterateStep (handleInstruction cfg)) s t ∧ t.basicBlockQueue = b :: q ∧
      b.instructions.drop t.currentInsIndex = rest := by
  induction is generalizing s with
  | nil => cases h; exact ⟨.refl, hq, his⟩
  | cons i is ih =>
    rw [iterateInstructions] at h
    split at h
    case h_1 u hu =>
      obtain ⟨_, _, -, rfl⟩ := handleInstruction_ok hu
      obtain ⟨hr, hq', hrest⟩ := ih h hq (drop_add_length (show _ = [i] ++ (is ++ rest) from his))
      exact ⟨.head (.next (nextInstruction_eq_some.mpr ⟨b, q, _, hq, hne, his⟩) (.inl hu)) hr, hq', hrest⟩
    case h_2 u hu => exact absurd hu (handleInstruction_ne_abortInstruction _ _ _)
    all_goals cases h

/-- The block loop of `iterate` over the queue `L` of `s` returns a state it
reached with at most one block left, or stalls on the next instruction of a
state it reached. -/
theorem iterateBlocks_reaches {L : List BasicBlock} {s t : MagicPepPerformanceModel}
    (hL : s.basicBlockQueue = L) (h : iterateBlocks (handleInstruction cfg) L s = .ok t) :
    (Relation.ReflTransGen (IterateStep (handleInstruction cfg)) s t ∧ t.basicBlockQueue.length ≤ 1) ∨
      ∃ u i, Relation.ReflTransGen (IterateStep (handleInstruction cfg)) s u ∧
        nextInstruction u = some i ∧ handleInstruction cfg u i = .notAvailable t := by
  induction L generalizing s with
  | nil => cases h; exact .inl ⟨.refl, by simp [hL]⟩
  | cons bb q ih =>
    rw [iterateBlocks] at h
    split at h
    · cases h; exact .inl ⟨.refl, by simp_all⟩
    rename_i hq
    have hq : q ≠ [] := by simpa using hq
    split at h
    case h_1 u hu =>
      -- the head block completes and is popped
      obtain ⟨hr, hqu, hdone⟩ := iterateInstructions_reaches hu hL hq (List.append_nil _).symm
      have hrun := hr.tail (.pop hqu hq hdone)
      rcases ih rfl h with ⟨ht, hle⟩ | ⟨v, i, hv, hi, hstall⟩
      · exact .inl ⟨hrun.trans ht, hle⟩
      · exact .inr ⟨v, i, hrun.trans hv, hi, hstall⟩
    case h_2 u hu =>
      -- a stall on the instruction after those that completed
      cases h
      obtain ⟨pre, i, post, v, hpre, hv, hi⟩ := iterateInstructions_eq_notAvailable hu
      obtain ⟨hr, hqv, hdrop⟩ := iterateInstructions_reaches hv hL hq hpre
      exact .inr ⟨v, i, hr, nextInstruction_eq_some.mpr ⟨bb, q, post, hqv, hq, hdrop⟩, hi⟩
    case h_3 u hu => exact absurd hu (iterateInstructions_ne_abortInstruction _ _ _ _)
    case h_4 => cases h

/-- `iterate` returns a state its loops reach, with at most one block left, or
it stalls on the next instruction `i` of a state `u` its loops reach. A stall
returns `u` with only the fact queue changed, and emptied: it held fewer facts
than `i` has memory operands, and the failed attempt popped them all. -/
theorem iterate_stall_state {s t : MagicPepPerformanceModel} (h : iterate cfg s = .ok t) :
    (Relation.ReflTransGen (IterateStep (handleInstruction cfg)) s t ∧ t.basicBlockQueue.length ≤ 1) ∨
      ∃ u i, Relation.ReflTransGen (IterateStep (handleInstruction cfg)) s u ∧
        nextInstruction u = some i ∧ handleInstruction cfg u i = .notAvailable t ∧
        t = { u with dynamicInfoQueue := [] } ∧ u.dynamicInfoQueue.length < (memoryOperands i).length := by
  rcases iterateBlocks_reaches rfl h with hdone | ⟨u, i, hu, hi, hstall⟩
  · exact .inl hdone
  · exact .inr ⟨u, i, hu, hi, hstall, handleInstruction_notAvailable hstall⟩

/-- Two blocks of one read with one fact, then a sentinel: `iterate` costs the
first read, pops its block, and stalls on the second with no fact left. -/
theorem iterate_stall_state_second_read :
    let s : MagicPepPerformanceModel := { init 1 with
      enabled := true
      basicBlockQueue := [⟨false, [⟨.generic, [⟨.memory, .read⟩], 0⟩]⟩,
        ⟨false, [⟨.generic, [⟨.memory, .read⟩], 0⟩]⟩, ⟨false, []⟩]
      dynamicInfoQueue := [.memoryRead 0 5] }
    let t : MagicPepPerformanceModel := { init 1 with
      enabled := true
      basicBlockQueue := [⟨false, [⟨.generic, [⟨.memory, .read⟩], 0⟩]⟩, ⟨false, []⟩]
      cycleCount := 6
      derived := ⟨1⟩ }
    (Relation.ReflTransGen (IterateStep (handleInstruction ⟨true, 1, 1, fun _ => [0, 1], 1⟩)) s t ∧
        t.basicBlockQueue.length ≤ 1) ∨
      ∃ u i, Relation.ReflTransGen (IterateStep (handleInstruction ⟨true, 1, 1, fun _ => [0, 1], 1⟩)) s u ∧
        nextInstruction u = some i ∧ handleInstruction ⟨true, 1, 1, fun _ => [0, 1], 1⟩ u i = .notAvailable t ∧
        t = { u with dynamicInfoQueue := [] } ∧ u.dynamicInfoQueue.length < (memoryOperands i).length :=
  @iterate_stall_state ⟨true, 1, 1, fun _ => [0, 1], 1⟩ _ _ rfl

/-- An instruction with two memory reads and one read fact queued: `iterate`
stalls on it with the cursor and the counters unchanged, but the fact is gone. -/
theorem iterate_two_reads_one_fact :
    let s : MagicPepPerformanceModel := { init 1 with
      enabled := true
      basicBlockQueue := [⟨false, [⟨.generic, [⟨.memory, .read⟩, ⟨.memory, .read⟩], 0⟩]⟩, ⟨true, []⟩]
      dynamicInfoQueue := [.memoryRead 0 5] }
    iterate ⟨true, 0, 1, fun _ => [0], 1⟩ s = .ok { s with dynamicInfoQueue := [] } ∧
      s.dynamicInfoQueue ≠ [] :=
  ⟨rfl, List.cons_ne_nil _ _⟩

/-- Where `iterate` stops: with at most one block queued, or stalled in the
head block on an instruction with a memory operand, with no fact queued. -/
def Stopped (s : MagicPepPerformanceModel) : Prop :=
  s.basicBlockQueue.length ≤ 1 ∨ ∃ b q i post, s.basicBlockQueue = b :: q ∧ q ≠ [] ∧
    b.instructions.drop s.currentInsIndex = i :: post ∧ hasMemoryOperand i = true ∧
    s.dynamicInfoQueue = []

/-- The block loop of `iterate` over the queue `L` of `s`: it moves the queues
as a call does, keeps the gate, and stops. -/
theorem iterateBlocks_moves {L : List BasicBlock} {s t : MagicPepPerformanceModel}
    (hL : s.basicBlockQueue = L) (h : iterateBlocks (handleInstruction cfg) L s = .ok t) :
    Moves s t [] [] ∧ t.enabled = s.enabled ∧ Stopped t := by
  rcases iterateBlocks_reaches hL h with ⟨hr, hle⟩ | ⟨u, i, hr, hi, hstall⟩
  · exact ⟨(iterateSteps_moves hr).1, (iterateSteps_moves hr).2, .inl hle⟩
  · -- a stall empties the fact queue and changes nothing else
    obtain ⟨hm, he⟩ := iterateSteps_moves hr
    obtain ⟨rfl, hlt⟩ := handleInstruction_notAvailable hstall
    obtain ⟨b, q, post, hq, hne, hdrop⟩ := nextInstruction_eq_some.mp hi
    have hmem : hasMemoryOperand i = true := by
      have hm : memoryOperands i ≠ [] := fun hnil => by simp [hnil] at hlt
      simpa [memoryOperands_eq_nil] using hm
    exact ⟨hm.trans (.of_facts List.nil_suffix rfl rfl rfl), he,
      .inr ⟨b, q, i, post, hq, hne, hdrop, hmem, rfl⟩⟩

/-! ## A call, and a run -/

/-- One call: what joins the queues is what the call offers, all of it while
the gate is open, and the gate stays open unless the call is `disable`. -/
theorem step_moves {o : Op} {s t : MagicPepPerformanceModel} (h : step cfg o s = .ok t) :
    ∃ blocks facts, blocks.Sublist o.queued ∧ facts.Sublist o.pushed ∧ Moves s t blocks facts ∧
      (isModeling cfg s = true → o ≠ .disable →
        blocks = o.queued ∧ facts = o.pushed ∧ isModeling cfg t = true) := by
  cases o with
  | enable c =>
    cases h
    unfold enable
    split_ifs
    · exact ⟨[], [], .slnil, .slnil, .refl s, fun hon _ => ⟨rfl, rfl, hon⟩⟩
    · exact ⟨[], [], .slnil, .slnil, .of_facts (List.suffix_refl _) rfl rfl rfl,
        fun hon _ => ⟨rfl, rfl, by simp_all [isModeling]⟩⟩
  | disable =>
    cases h
    exact ⟨[], [], .slnil, .slnil, .of_facts (List.suffix_refl _) rfl rfl rfl, fun _ h => absurd rfl h⟩
  | queueDynamicInstruction i =>
    cases h
    unfold queueDynamicInstruction
    split
    · exact ⟨[⟨true, [i]⟩], [], .refl _, .slnil, .queue s _, fun _ _ => ⟨rfl, rfl, ‹_›⟩⟩
    · exact ⟨[], [], List.nil_sublist _, .slnil, .refl s, fun h => absurd h ‹_›⟩
  | queueBasicBlock b =>
    cases h
    unfold queueBasicBlock
    split
    · exact ⟨[b], [], .refl _, .slnil, .queue s _, fun _ _ => ⟨rfl, rfl, ‹_›⟩⟩
    · exact ⟨[], [], List.nil_sublist _, .slnil, .refl s, fun h => absurd h ‹_›⟩
  | pushDynamicInstructionInfo f =>
    cases h
    unfold pushDynamicInstructionInfo
    split
    · exact ⟨[], [f], .slnil, .refl _, .push s _, fun _ _ => ⟨rfl, rfl, ‹_›⟩⟩
    · exact ⟨[], [], .slnil, List.nil_sublist _, .refl s, fun h => absurd h ‹_›⟩
  | popDynamicInstructionInfo =>
    obtain ⟨q, hq, rfl⟩ := (popDynamicInstructionInfo_suffix s).of_state h
    exact ⟨[], [], .slnil, .slnil, .of_facts hq rfl rfl rfl, fun hon _ => ⟨rfl, rfl, hon⟩⟩
  | getDynamicInstructionInfo =>
    obtain rfl := (getDynamicInstructionInfo_keeps s).of_state h
    exact ⟨[], [], .slnil, .slnil, .refl _, fun hon _ => ⟨rfl, rfl, hon⟩⟩
  | iterate =>
    obtain ⟨hm, he, -⟩ := iterateBlocks_moves rfl h
    exact ⟨[], [], .slnil, .slnil, hm, fun hon _ => ⟨rfl, rfl, by simpa [isModeling, he] using hon⟩⟩

/-- A run moves the queues as its calls do, one after the other. -/
theorem run_moves {ops : List Op} {s t : MagicPepPerformanceModel} (h : run cfg ops s = .ok t) :
    ∃ blocks facts, blocks.Sublist (blocksOf ops) ∧ facts.Sublist (factsOf ops) ∧
      Moves s t blocks facts ∧
      (isModeling cfg s = true → Op.disable ∉ ops →
        blocks = blocksOf ops ∧ facts = factsOf ops) := by
  induction ops generalizing s with
  | nil => cases h; exact ⟨[], [], .slnil, .slnil, .refl _, fun _ _ => ⟨rfl, rfl⟩⟩
  | cons o os ih =>
    rw [run] at h
    split at h
    · next u hu =>
      obtain ⟨b₁, f₁, hb₁, hf₁, hm₁, hon₁⟩ := step_moves hu
      obtain ⟨b₂, f₂, hb₂, hf₂, hm₂, hon₂⟩ := ih h
      refine ⟨b₁ ++ b₂, f₁ ++ f₂, hb₁.append hb₂, hf₁.append hf₂, hm₁.trans hm₂, fun hon hd => ?_⟩
      obtain ⟨rfl, rfl, hon'⟩ := hon₁ hon fun e => hd (e ▸ List.mem_cons_self _ _)
      obtain ⟨rfl, rfl⟩ := hon₂ hon' fun e => hd (List.mem_cons_of_mem _ e)
      exact ⟨rfl, rfl⟩
    · cases h

/-- The fact queue is a FIFO over every run: what the run leaves queued is what
was queued, then the facts pushed while the gate was open, in push order, less
some taken off the front; while the gate stays open every push is kept. -/
theorem run_facts_fifo {ops : List Op} {s t : MagicPepPerformanceModel} (h : run cfg ops s = .ok t) :
    ∃ facts, facts.Sublist (factsOf ops) ∧ t.dynamicInfoQueue <:+ s.dynamicInfoQueue ++ facts ∧
      (isModeling cfg s = true → Op.disable ∉ ops → facts = factsOf ops) := by
  obtain ⟨_, facts, -, hf, hm, hon⟩ := run_moves h
  exact ⟨facts, hf, hm.facts_fifo, fun h₁ h₂ => (hon h₁ h₂).2⟩

/-- An enabled model: a read pushed, popped, then a write pushed; the write is
left, and both pushes were kept. -/
theorem run_facts_fifo_push_pop_push :
    ∃ facts, facts.Sublist (factsOf [.pushDynamicInstructionInfo (.memoryRead 0 5),
        .popDynamicInstructionInfo, .pushDynamicInstructionInfo (.memoryWrite 8 7)]) ∧
      [DynamicInstructionInfo.memoryWrite 8 7] <:+ [] ++ facts ∧
      (isModeling ⟨true, 1, 1, fun _ => [0, 1], 1⟩ { init 1 with enabled := true } = true →
        Op.disable ∉ [.pushDynamicInstructionInfo (.memoryRead 0 5), .popDynamicInstructionInfo,
          .pushDynamicInstructionInfo (.memoryWrite 8 7)] →
        facts = factsOf [.pushDynamicInstructionInfo (.memoryRead 0 5), .popDynamicInstructionInfo,
          .pushDynamicInstructionInfo (.memoryWrite 8 7)]) :=
  @run_facts_fifo ⟨true, 1, 1, fun _ => [0, 1], 1⟩
    [.pushDynamicInstructionInfo (.memoryRead 0 5), .popDynamicInstructionInfo,
      .pushDynamicInstructionInfo (.memoryWrite 8 7)]
    { init 1 with enabled := true }
    { init 1 with enabled := true, dynamicInfoQueue := [.memoryWrite 8 7] } rfl

/-- Over every run from a state whose cursor is at 0 when no block is queued,
blocks join at the back and leave at the front only, the last one never; the
instructions costed are the front of those queued, in queue order, each
counted once; and while the gate stays open every queued block is kept. -/
theorem run_instructions_once {ops : List Op} {s t : MagicPepPerformanceModel}
    (h0 : CursorAtStart s) (h : run cfg ops s = .ok t) :
    ∃ blocks done, blocks.Sublist (blocksOf ops) ∧ t.basicBlockQueue <:+ s.basicBlockQueue ++ blocks ∧
      (t.basicBlockQueue = [] → s.basicBlockQueue ++ blocks = []) ∧
      queuedInstructions s ++ blocks.flatMap BasicBlock.instructions = done ++ queuedInstructions t ∧
      t.derived.instructionCount = s.derived.instructionCount + done.length ∧
      (isModeling cfg s = true → Op.disable ∉ ops → blocks = blocksOf ops) := by
  obtain ⟨blocks, _, hb, -, hm, hon⟩ := run_moves h
  obtain ⟨done, hd, hn⟩ := hm.costed h0
  exact ⟨blocks, done, hb, hm.blocks_fifo, hm.last_stays, hd, hn, fun h₁ h₂ => (hon h₁ h₂).1⟩

/-- An enabled model: a block of one read, then a sentinel, then the read's
fact; `iterate` costs the read and pops its block. -/
theorem run_instructions_once_one_read :
    ∃ blocks done,
      blocks.Sublist (blocksOf [.queueBasicBlock ⟨false, [⟨.generic, [⟨.memory, .read⟩], 0⟩]⟩,
        .queueBasicBlock ⟨false, []⟩, .pushDynamicInstructionInfo (.memoryRead 0 5), .iterate]) ∧
      [⟨false, []⟩] <:+ [] ++ blocks ∧
      ([(⟨false, []⟩ : BasicBlock)] = [] → [] ++ blocks = []) ∧
      [] ++ blocks.flatMap BasicBlock.instructions = done ++ [] ∧
      1 = 0 + done.length ∧
      (isModeling ⟨true, 1, 1, fun _ => [0, 1], 1⟩ { init 1 with enabled := true } = true →
        Op.disable ∉ [.queueBasicBlock ⟨false, [⟨.generic, [⟨.memory, .read⟩], 0⟩]⟩,
          .queueBasicBlock ⟨false, []⟩, .pushDynamicInstructionInfo (.memoryRead 0 5), .iterate] →
        blocks = blocksOf [.queueBasicBlock ⟨false, [⟨.generic, [⟨.memory, .read⟩], 0⟩]⟩,
          .queueBasicBlock ⟨false, []⟩, .pushDynamicInstructionInfo (.memoryRead 0 5), .iterate]) :=
  @run_instructions_once ⟨true, 1, 1, fun _ => [0, 1], 1⟩
    [.queueBasicBlock ⟨false, [⟨.generic, [⟨.memory, .read⟩], 0⟩]⟩, .queueBasicBlock ⟨false, []⟩,
      .pushDynamicInstructionInfo (.memoryRead 0 5), .iterate]
    { init 1 with enabled := true }
    { init 1 with enabled := true, basicBlockQueue := [⟨false, []⟩], cycleCount := 6, derived := ⟨1⟩ }
    (fun _ => rfl) rfl

/-- `iterate` returns only when it must: with at most one block queued, or
stalled on an instruction that needs a fact with none queued. So a second
`iterate` with no call in between returns the same model. -/
theorem iterate_stops {s t : MagicPepPerformanceModel} (h : iterate cfg s = .ok t) :
    Stopped t ∧ iterate cfg t = .ok t := by
  obtain ⟨-, -, hst⟩ := iterateBlocks_moves rfl h
  refine ⟨hst, ?_⟩
  rcases hst with hle | ⟨b, q, i, post, hbq, hq, hdrop, hm, hq0⟩
  · exact iterateBlocks_of_length_le_one hle t
  · show iterateBlocks _ t.basicBlockQueue t = _
    rw [hbq]
    refine iterateBlocks_cons_notAvailable hq ?_
    rw [hdrop]
    exact iterateInstructions_cons_notAvailable (handleInstruction_stall hq0 hm)

/-- Two blocks of one read with one fact, then a sentinel: `iterate` costs the
first read and stalls on the second, and a second `iterate` stays there. -/
theorem iterate_stops_second_read :
    Stopped { init 1 with
        enabled := true
        basicBlockQueue := [⟨false, [⟨.generic, [⟨.memory, .read⟩], 0⟩]⟩, ⟨false, []⟩]
        cycleCount := 6
        derived := ⟨1⟩ } ∧
      iterate ⟨true, 1, 1, fun _ => [0, 1], 1⟩
        { init 1 with
          enabled := true
          basicBlockQueue := [⟨false, [⟨.generic, [⟨.memory, .read⟩], 0⟩]⟩, ⟨false, []⟩]
          cycleCount := 6
          derived := ⟨1⟩ } =
        .ok { init 1 with
          enabled := true
          basicBlockQueue := [⟨false, [⟨.generic, [⟨.memory, .read⟩], 0⟩]⟩, ⟨false, []⟩]
          cycleCount := 6
          derived := ⟨1⟩ } :=
  @iterate_stops ⟨true, 1, 1, fun _ => [0, 1], 1⟩
    { init 1 with
      enabled := true
      basicBlockQueue := [⟨false, [⟨.generic, [⟨.memory, .read⟩], 0⟩]⟩,
        ⟨false, [⟨.generic, [⟨.memory, .read⟩], 0⟩]⟩, ⟨false, []⟩]
      dynamicInfoQueue := [.memoryRead 0 5] }
    _ rfl

end MagicPepPerformanceModel

end Graphite
