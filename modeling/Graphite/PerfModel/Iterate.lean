import Graphite.PerfModel.State
import Mathlib.Logic.Relation

/-!
# The cooperative `iterate` loop

`CorePerfModel::iterate()` drains the block queue while more than one block is
queued, keeping the last as a sentinel. In the head block it hands every
instruction from `m_current_ins_index` on to the concrete model's
`handleInstruction`. An `AbortInstructionException` skips the instruction; a
`DynamicInstructionInfoNotAvailableException` ends the call with the cursor on
the instruction, to be retried; a finished block is popped and the cursor
reset.

The concrete model is the parameter `handleInstruction`. It never touches the
block queue or the cursor (they belong to the base class), so the loop over
the queue recurses on the blocks it read at the start.

`IterateStep` is one pass of the loops that does not return: the next
instruction (`nextInstruction`) completes or aborts, or a finished head block
is popped. The states `iterate` goes through are those it reaches.
-/

namespace Graphite.CorePerfModel

variable {M : Type} (handleInstruction : CorePerfModel M → Instruction → Outcome (CorePerfModel M) Unit)

/-- The `for` loop of `iterate` over the instructions of the head block from
the cursor: the cursor moves past every instruction that completes or aborts. -/
def iterateInstructions : List Instruction → CorePerfModel M → Outcome (CorePerfModel M) Unit
  | [], s => .ok () s
  | i :: is, s =>
    match handleInstruction s i with
    | .ok _ s | .abortInstruction s =>
      iterateInstructions is { s with currentInsIndex := s.currentInsIndex + 1 }
    | .notAvailable s => .notAvailable s
    | .fatal msg => .fatal msg

/-- The `while` loop of `iterate` over the queued blocks. -/
def iterateBlocks : List BasicBlock → CorePerfModel M → Except String (CorePerfModel M)
  | [], s => .ok s
  | bb :: q, s =>
    if q.isEmpty then .ok s else
    match iterateInstructions handleInstruction (bb.instructions.drop s.currentInsIndex) s with
    | .ok _ s => iterateBlocks q { s with basicBlockQueue := q, currentInsIndex := 0 }
    | .notAvailable s | .abortInstruction s => .ok s
    | .fatal msg => .error msg

/-- `CorePerfModel::iterate()`. -/
def iterate (s : CorePerfModel M) : Except String (CorePerfModel M) :=
  iterateBlocks handleInstruction s.basicBlockQueue s

/-- The instruction the loops of `iterate` hand to `handleInstruction` next:
the one at the cursor in the head block, while another block is queued. -/
def nextInstruction (s : CorePerfModel M) : Option Instruction :=
  match s.basicBlockQueue with
  | b :: _ :: _ => (b.instructions.drop s.currentInsIndex).head?
  | _ => none

/-- One pass of the loops of `iterate` that does not return: the next
instruction completes or aborts and the cursor moves past it, or the head
block is finished, popped, and the cursor reset. -/
inductive IterateStep : CorePerfModel M → CorePerfModel M → Prop
  | next {s t : CorePerfModel M} {i : Instruction} (hi : nextInstruction s = some i)
      (h : handleInstruction s i = .ok () t ∨ handleInstruction s i = .abortInstruction t) :
      IterateStep s { t with currentInsIndex := t.currentInsIndex + 1 }
  | pop {s : CorePerfModel M} {b : BasicBlock} {q : List BasicBlock} (hq : s.basicBlockQueue = b :: q)
      (hne : q ≠ []) (hdone : b.instructions.drop s.currentInsIndex = []) :
      IterateStep s { s with basicBlockQueue := q, currentInsIndex := 0 }

/-! ## Unfolding the loops -/

variable {handleInstruction}

theorem nextInstruction_eq_some {s : CorePerfModel M} {i : Instruction} :
    nextInstruction s = some i ↔ ∃ b q post, s.basicBlockQueue = b :: q ∧ q ≠ [] ∧
      b.instructions.drop s.currentInsIndex = i :: post := by
  unfold nextInstruction
  constructor
  · split
    · next b c q hq =>
      intro h
      obtain ⟨post, hpost⟩ := List.head?_eq_some_iff.mp h
      exact ⟨b, c :: q, post, hq, List.cons_ne_nil _ _, hpost⟩
    · exact fun h => by cases h
  · rintro ⟨b, q, post, hq, hne, hi⟩
    obtain ⟨_, _, rfl⟩ := List.exists_cons_of_ne_nil hne
    simp [hq, hi]

@[simp] theorem iterateInstructions_nil (s : CorePerfModel M) :
    iterateInstructions handleInstruction [] s = .ok () s := rfl

theorem iterateInstructions_cons_ok {i : Instruction} {is : List Instruction}
    {s t : CorePerfModel M} (h : handleInstruction s i = .ok () t) :
    iterateInstructions handleInstruction (i :: is) s =
      iterateInstructions handleInstruction is { t with currentInsIndex := t.currentInsIndex + 1 } := by
  simp [iterateInstructions, h]

theorem iterateInstructions_cons_notAvailable {i : Instruction} {is : List Instruction}
    {s t : CorePerfModel M} (h : handleInstruction s i = .notAvailable t) :
    iterateInstructions handleInstruction (i :: is) s = .notAvailable t := by
  simp [iterateInstructions, h]

theorem iterateInstructions_cons_fatal {i : Instruction} {is : List Instruction}
    {s : CorePerfModel M} {msg : String} (h : handleInstruction s i = .fatal msg) :
    iterateInstructions handleInstruction (i :: is) s = .fatal msg := by
  simp [iterateInstructions, h]

/-- A stall of the loop comes from one instruction: the loop ran those before
it, and `handleInstruction` stalled on it in the state they left. -/
theorem iterateInstructions_eq_notAvailable {is : List Instruction} {s t : CorePerfModel M}
    (h : iterateInstructions handleInstruction is s = .notAvailable t) :
    ∃ pre i post u, is = pre ++ i :: post ∧
      iterateInstructions handleInstruction pre s = .ok () u ∧ handleInstruction u i = .notAvailable t := by
  induction is generalizing s with
  | nil => cases h
  | cons i is ih =>
    rw [iterateInstructions] at h
    split at h
    case h_1 | h_2 =>
      -- `i` completes or aborts: the stall is further on
      obtain ⟨pre, j, post, u, rfl, hpre, hj⟩ := ih h
      exact ⟨i :: pre, j, post, u, rfl, by simp [iterateInstructions, *], hj⟩
    case h_3 heq => cases h; exact ⟨[], i, is, s, rfl, rfl, heq⟩
    case h_4 => cases h

/-- An invariant of `handleInstruction` that survives moving the cursor holds
of every state the instruction loop hands back. -/
theorem iterateInstructions_keeps {P : CorePerfModel M → Prop}
    (hH : ∀ s i, P s → (handleInstruction s i).Keeps P)
    (hcur : ∀ s n, P s → P { s with currentInsIndex := n }) {is : List Instruction}
    {s : CorePerfModel M} (hs : P s) : (iterateInstructions handleInstruction is s).Keeps P := by
  induction is generalizing s with
  | nil => exact hs
  | cons i is ih =>
    have hi := hH s i hs
    rw [iterateInstructions]
    split
    case h_1 | h_2 =>
      rw [‹handleInstruction s i = _›] at hi
      exact ih (hcur _ _ hi)
    case h_3 heq => rw [heq] at hi; exact hi
    case h_4 => trivial

/-- An invariant of the instruction loop that survives popping a block of the
queue `L` being drained holds of the state the block loop returns. -/
theorem iterateBlocks_keeps {P : CorePerfModel M → Prop} {L : List BasicBlock}
    (hH : ∀ s i, P s → (handleInstruction s i).Keeps P)
    (hcur : ∀ s n, P s → P { s with currentInsIndex := n })
    (hpop : ∀ s q, P s → q <:+ L → P { s with basicBlockQueue := q, currentInsIndex := 0 })
    {s t : CorePerfModel M} (hs : P s) (h : iterateBlocks handleInstruction L s = .ok t) : P t := by
  induction L generalizing s with
  | nil => cases h; exact hs
  | cons bb q ih =>
    rw [iterateBlocks] at h
    split at h
    · cases h; exact hs
    have hi : (iterateInstructions handleInstruction (bb.instructions.drop s.currentInsIndex) s).Keeps P :=
      iterateInstructions_keeps hH hcur hs
    split at h
    case h_1 heq =>
      rw [heq] at hi
      exact ih (fun s q' hs hq' => hpop s q' hs (hq'.trans (List.suffix_cons _ _)))
        (hpop _ _ hi (List.suffix_cons _ _)) h
    case h_2 | h_3 =>
      cases h
      rw [‹iterateInstructions _ _ _ = _›] at hi
      exact hi
    case h_4 => cases h

/-- With one block or none, `iterate` does nothing: the sentinel stays. -/
theorem iterateBlocks_of_length_le_one {q : List BasicBlock} (hq : q.length ≤ 1)
    (s : CorePerfModel M) : iterateBlocks handleInstruction q s = .ok s := by
  match q, hq with
  | [], _ | [_], _ => rfl

theorem iterateBlocks_cons_ok {bb b : BasicBlock} {q : List BasicBlock} {s t : CorePerfModel M}
    (h : iterateInstructions handleInstruction (bb.instructions.drop s.currentInsIndex) s = .ok () t) :
    iterateBlocks handleInstruction (bb :: b :: q) s =
      iterateBlocks handleInstruction (b :: q) { t with basicBlockQueue := b :: q, currentInsIndex := 0 } := by
  simp [iterateBlocks, h]

theorem iterateBlocks_cons_notAvailable {bb : BasicBlock} {q : List BasicBlock} (hq : q ≠ [])
    {s t : CorePerfModel M}
    (h : iterateInstructions handleInstruction (bb.instructions.drop s.currentInsIndex) s = .notAvailable t) :
    iterateBlocks handleInstruction (bb :: q) s = .ok t := by
  obtain ⟨b, q, rfl⟩ := List.exists_cons_of_ne_nil hq
  simp [iterateBlocks, h]

theorem iterateBlocks_cons_fatal {bb : BasicBlock} {q : List BasicBlock} (hq : q ≠ [])
    {s : CorePerfModel M} {msg : String}
    (h : iterateInstructions handleInstruction (bb.instructions.drop s.currentInsIndex) s = .fatal msg) :
    iterateBlocks handleInstruction (bb :: q) s = .error msg := by
  obtain ⟨b, q, rfl⟩ := List.exists_cons_of_ne_nil hq
  simp [iterateBlocks, h]

end Graphite.CorePerfModel
