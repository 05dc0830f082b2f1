import Graphite.PerfModel.MagicPep

/-!
# What one `iterate` call costs

Take the instructions `iterate` may cost (`pending`: the head block from the
cursor, then every block but the sentinel) with their bundles `fss`, and a
fact queue holding the bundles of the first `k` of them (then anything, once
all their bundles are in). One call completes the instructions in order up to
the first one after those `k` that has a memory operand (`firstStarved`),
stalls there, and has then consumed exactly the completed instructions'
bundles and charged exactly their costs (`iterate_progress`).

The proof follows the two loops: `iterateInstructions_progress` for the
instructions of one block, by induction on them, then `iterateBlocks_progress`
over the blocks, by induction on the middle ones. `seek` says where the cursor
ends up: on the starved instruction, in the block that holds it, every block
before it popped.
-/

namespace Graphite.MagicPepPerformanceModel

open CorePerfModel

variable {cfg : Config}

/-! ## The first starved instruction -/

/-- The index in `is` of the first instruction with a memory operand after the
first `k` (whose bundles are queued), or `is.length` if there is none. -/
def firstStarved (is : List Instruction) (k : Nat) : Nat :=
  min is.length (k + (is.drop k).findIdx hasMemoryOperand)

theorem firstStarved_cons_succ (i : Instruction) (is : List Instruction) (k : Nat) :
    firstStarved (i :: is) (k + 1) = firstStarved is k + 1 := by
  simp only [firstStarved, List.length_cons, List.drop_succ_cons]
  omega

theorem firstStarved_cons_zero (i : Instruction) (is : List Instruction) :
    firstStarved (i :: is) 0 = if hasMemoryOperand i then 0 else firstStarved is 0 + 1 := by
  simp only [firstStarved, List.length_cons, List.drop_zero, List.findIdx_cons, Nat.zero_add]
  cases hasMemoryOperand i
  · exact Nat.succ_min_succ _ _
  · exact Nat.min_zero _

theorem firstStarved_le (is : List Instruction) (k : Nat) : firstStarved is k ≤ is.length :=
  Nat.min_le_left _ _

theorem min_le_firstStarved (is : List Instruction) (k : Nat) : min is.length k ≤ firstStarved is k := by
  simp only [firstStarved]; omega

/-- Past the first block, the count goes on in the rest. -/
theorem firstStarved_append {bs later : List Instruction} {k : Nat}
    (h : bs.length ≤ firstStarved (bs ++ later) k) :
    firstStarved (bs ++ later) k = bs.length + firstStarved later (k - bs.length) := by
  induction bs generalizing k with
  | nil => simp
  | cons i bs ih =>
    cases k with
    | zero =>
      rw [List.cons_append, firstStarved_cons_zero] at h ⊢
      by_cases hm : hasMemoryOperand i
      · simp [hm] at h
      · rw [if_neg hm, List.length_cons] at h ⊢
        rw [ih (by omega)]; simp; omega
    | succ k =>
      rw [List.cons_append, firstStarved_cons_succ] at h ⊢
      rw [ih (by simp at h; omega)]; simp; omega

/-! ## One block -/

/-- The instructions of one block, `bs`, followed by `later` ones: the loop
completes `min (firstStarved (bs ++ later) k) bs.length` of them, and stalls if
the first starved instruction is in `bs`. -/
theorem iterateInstructions_progress {s : MagicPepPerformanceModel} (hon : isModeling cfg s = true)
    {bs later : List Instruction} {fss : List (List DynamicInstructionInfo)} (k : Nat)
    {R : List DynamicInstructionInfo} (hb : List.Forall₂ IsBundle (bs ++ later) fss)
    (hQ : s.dynamicInfoQueue = (fss.take k).flatten ++ R) (hR : k < fss.length → R = [])
    (hcap : s.dynamicInfoQueue.length < 5000) :
    iterateInstructions (handleInstruction cfg) bs s =
      let n := min (firstStarved (bs ++ later) k) bs.length
      let t : MagicPepPerformanceModel := { s with
        currentInsIndex := s.currentInsIndex + n
        dynamicInfoQueue := ((fss.drop n).take (k - n)).flatten ++ R
        cycleCount := s.cycleCount + ((List.zipWith costOf (bs ++ later) fss).take n).sum
        derived := { instructionCount := s.derived.instructionCount + n } }
      if firstStarved (bs ++ later) k < bs.length then .notAvailable t else .ok () t := by
  induction bs generalizing s fss k with
  | nil =>
    have : firstStarved later k ≥ 0 := Nat.zero_le _
    simp [← hQ]
  | cons i bs ih =>
    obtain ⟨F, fss, hF, hbs, rfl⟩ := List.forall₂_cons_left_iff.mp hb
    cases k with
    | succ k =>
      simp only [List.take_succ_cons, List.flatten_cons, List.append_assoc] at hQ
      rw [iterateInstructions_cons_ok (handleInstruction_bundle hon hF hQ hcap)]
      have hlen : ((fss.take k).flatten ++ R).length < 5000 := by
        simp only [hQ, List.length_append] at hcap ⊢; omega
      refine Eq.trans (ih ?_ k hbs ?_ ?_ ?_) ?_
      · exact hon
      · rfl
      · exact fun h => hR (by simp; omega)
      · exact hlen
      simp only [List.cons_append, firstStarved_cons_succ, List.length_cons,
        Nat.add_lt_add_iff_right, Nat.add_min_add_right, List.zipWith_cons_cons,
        List.take_succ_cons, List.sum_cons, List.drop_succ_cons, Nat.add_sub_add_right, add_assoc,
        Nat.add_right_comm _ 1]
    | zero =>
      obtain rfl := hR (by simp)
      simp only [List.take_zero, List.flatten_nil, List.append_nil] at hQ
      by_cases hm : hasMemoryOperand i
      · rw [iterateInstructions_cons_notAvailable (handleInstruction_stall hQ hm)]
        simp only [List.cons_append, firstStarved_cons_zero, hm, Bool.false_eq_true, ↓reduceIte,
          List.length_cons, Nat.sub_self,
          Nat.zero_lt_succ, Nat.zero_min, Nat.add_zero, List.take_zero, List.sum_nil,
          List.drop_zero, List.flatten_nil, List.append_nil, add_zero]
        rw [← hQ]
      · obtain rfl := hF.eq_nil (by simpa using hm)
        rw [iterateInstructions_cons_ok (handleInstruction_bundle hon hF (by simpa using hQ) hcap)]
        refine Eq.trans (ih ?_ 0 hbs ?_ (fun _ => rfl) ?_) ?_
        · exact hon
        · simp [hQ]
        · simp [hQ] at hcap ⊢
        simp only [List.cons_append, firstStarved_cons_zero, hm, Bool.false_eq_true, ↓reduceIte,
          List.length_cons, Nat.sub_self,
          Nat.add_lt_add_iff_right, Nat.add_min_add_right, List.zipWith_cons_cons,
          List.take_succ_cons, List.sum_cons, List.drop_succ_cons, costOf, List.map_nil,
          List.sum_nil, zero_add, add_assoc, Nat.add_right_comm _ 1, Nat.zero_sub, List.take_zero,
          List.flatten_nil, List.append_nil]

/-! ## The blocks -/

/-- The blocks left and the cursor after `j` more instructions from cursor `c`
in the blocks `q`: every block finished before the last is popped. -/
def seek : List BasicBlock → Nat → Nat → List BasicBlock × Nat
  | [], c, j => ([], c + j)
  | b :: q, c, j =>
    if q.isEmpty ∨ c + j < b.instructions.length then (b :: q, c + j)
    else seek q 0 (c + j - b.instructions.length)

theorem seek_cons_of_lt {b : BasicBlock} {q : List BasicBlock} {c j : Nat}
    (h : c + j < b.instructions.length) : seek (b :: q) c j = (b :: q, c + j) := by
  simp [seek, h]

theorem seek_cons_of_le {b : BasicBlock} {q : List BasicBlock} (hq : q ≠ []) {c j : Nat}
    (h : b.instructions.length ≤ c + j) :
    seek (b :: q) c j = seek q 0 (c + j - b.instructions.length) := by
  simp [seek, hq, Nat.not_lt.mpr h]

@[simp] theorem seek_singleton (b : BasicBlock) (c j : Nat) : seek [b] c j = ([b], c + j) := by
  simp [seek]

/-- The bundles left after `n` instructions are a suffix of those queued. -/
theorem flatten_take_drop_suffix (fss : List (List DynamicInstructionInfo)) (n k : Nat) :
    ((fss.drop n).take (k - n)).flatten <:+ (fss.take k).flatten := by
  rcases le_or_lt n k with h | h
  · rw [← Nat.add_sub_cancel' h, List.take_add, List.flatten_append, Nat.add_sub_cancel_left]
    exact List.suffix_append _ _
  · rw [Nat.sub_eq_zero_of_le h.le, List.take_zero, List.flatten_nil]
    exact List.nil_suffix

/-- The costs of the first `n + m` instructions: those of the first `n`, then
of `m` more. -/
theorem sum_take_zipWith_add (is : List Instruction) (fss : List (List DynamicInstructionInfo))
    (n m : Nat) :
    ((List.zipWith costOf is fss).take (n + m)).sum =
      ((List.zipWith costOf is fss).take n).sum +
        ((List.zipWith costOf (is.drop n) (fss.drop n)).take m).sum := by
  rw [List.take_add, List.sum_append, List.drop_zipWith]

/-- Both loops: the blocks `b :: mid` before the sentinel `last`, from cursor
`s.currentInsIndex`, with the bundles of the first `k` pending instructions queued. -/
theorem iterateBlocks_progress {s : MagicPepPerformanceModel} (hon : isModeling cfg s = true)
    {b last : BasicBlock} {mid : List BasicBlock} (hq : s.basicBlockQueue = b :: (mid ++ [last]))
    (hc : s.currentInsIndex ≤ b.instructions.length) {fss : List (List DynamicInstructionInfo)}
    (k : Nat) {R : List DynamicInstructionInfo}
    (hb : List.Forall₂ IsBundle
      (b.instructions.drop s.currentInsIndex ++ mid.flatMap BasicBlock.instructions) fss)
    (hQ : s.dynamicInfoQueue = (fss.take k).flatten ++ R) (hR : k < fss.length → R = [])
    (hcap : s.dynamicInfoQueue.length < 5000) :
    iterateBlocks (handleInstruction cfg) (b :: (mid ++ [last])) s =
      let pending := b.instructions.drop s.currentInsIndex ++ mid.flatMap BasicBlock.instructions
      let j := firstStarved pending k
      .ok { s with
        basicBlockQueue := (seek (b :: (mid ++ [last])) s.currentInsIndex j).1
        currentInsIndex := (seek (b :: (mid ++ [last])) s.currentInsIndex j).2
        dynamicInfoQueue := ((fss.drop j).take (k - j)).flatten ++ R
        cycleCount := s.cycleCount + ((List.zipWith costOf pending fss).take j).sum
        derived := { instructionCount := s.derived.instructionCount + j } } := by
  induction mid generalizing b s fss k
  all_goals
    dsimp only
    have hI := iterateInstructions_progress hon k hb hQ hR hcap
    dsimp only at hI
    split at hI
    · -- the first starved instruction is in the head block
      rename_i hj
      rw [Nat.min_eq_left hj.le] at hI
      rw [List.length_drop] at hj
      rw [iterateBlocks_cons_notAvailable (by simp) hI, seek_cons_of_lt (by omega), ← hq]
    -- the head block completes and is popped
    rename_i hj
    rw [Nat.min_eq_right (Nat.not_lt.mp hj)] at hI
  case nil =>
    have hle := firstStarved_le (b.instructions.drop s.currentInsIndex) k
    simp only [List.flatMap_nil, List.append_nil, List.length_drop] at hj hle hI ⊢
    rw [List.nil_append, iterateBlocks_cons_ok hI, iterateBlocks_of_length_le_one (by simp),
      seek_cons_of_le (by simp) (by omega)]
    have hj' : firstStarved (b.instructions.drop s.currentInsIndex) k =
        b.instructions.length - s.currentInsIndex := by omega
    simp [hj']
    omega
  case cons m mid ih =>
    have hn : (b.instructions.drop s.currentInsIndex).length =
        b.instructions.length - s.currentInsIndex := List.length_drop _ _
    have hlen := hb.length_eq
    have hjn := firstStarved_append (Nat.not_lt.mp hj)
    rw [List.cons_append, iterateBlocks_cons_ok hI]
    refine Eq.trans (ih ?_ rfl (Nat.zero_le _) (k - (b.instructions.drop s.currentInsIndex).length)
      ?_ rfl ?_ ?_) ?_
    · exact hon
    · have := List.forall₂_drop (b.instructions.drop s.currentInsIndex).length hb
      rwa [List.drop_left' rfl, List.flatMap_cons] at this
    · intro h
      apply hR
      simp only [List.length_drop] at h
      omega
    · refine lt_of_le_of_lt ?_ hcap
      rw [hQ, List.length_append, List.length_append]
      exact Nat.add_le_add_right (flatten_take_drop_suffix fss _ k).length_le _
    · rw [hjn, seek_cons_of_le (by simp) (by omega), sum_take_zipWith_add, List.drop_left' rfl]
      simp only [List.flatMap_cons, List.drop_zero, List.drop_drop, Nat.sub_sub, add_assoc,
        Nat.zero_add]
      congr 4 <;> omega

/-- One `iterate` call on a magic co-processor model whose gate is open, with
blocks `b :: mid` before the sentinel `last` and the cursor in `b`, and the
bundles `fss` of the first `k` pending instructions queued (then `R`, which is
empty unless all their bundles are in), below the cap. The call completes the
pending instructions up to the first starved one, in order and once each; pops
exactly the blocks it finished, never `last`; leaves the cursor on the starved
instruction, or at 0 in `last`; removes exactly the completed instructions'
bundles and adds exactly their costs. -/
theorem iterate_progress {s : MagicPepPerformanceModel} (hen : s.enabled = true)
    (hcfg : cfg.enablePerformanceModeling = true) {b last : BasicBlock} {mid : List BasicBlock}
    (hq : s.basicBlockQueue = b :: (mid ++ [last])) (hc : s.currentInsIndex ≤ b.instructions.length)
    {fss : List (List DynamicInstructionInfo)} {k : Nat} {R : List DynamicInstructionInfo}
    (hb : List.Forall₂ IsBundle
      (b.instructions.drop s.currentInsIndex ++ mid.flatMap BasicBlock.instructions) fss)
    (hQ : s.dynamicInfoQueue = (fss.take k).flatten ++ R) (hR : k < fss.length → R = [])
    (hcap : s.dynamicInfoQueue.length < 5000) :
    let pending := b.instructions.drop s.currentInsIndex ++ mid.flatMap BasicBlock.instructions
    let j := firstStarved pending k
    iterate cfg s = .ok { s with
      basicBlockQueue := (seek s.basicBlockQueue s.currentInsIndex j).1
      currentInsIndex := (seek s.basicBlockQueue s.currentInsIndex j).2
      dynamicInfoQueue := R
      cycleCount := s.cycleCount + ((List.zipWith costOf pending fss).take j).sum
      derived := { instructionCount := s.derived.instructionCount + j } } := by
  dsimp only
  have hon : isModeling cfg s = true := by simp [isModeling, hen, hcfg]
  rw [iterate, CorePerfModel.iterate, hq, iterateBlocks_progress hon hq hc k hb hQ hR hcap]
  have hlen := hb.length_eq
  generalize b.instructions.drop s.currentInsIndex ++ mid.flatMap BasicBlock.instructions = pending
    at hlen ⊢
  have hmin := min_le_firstStarved pending k
  rcases le_or_lt k (firstStarved pending k) with h | h
  · simp [Nat.sub_eq_zero_of_le h]
  · simp [List.drop_eq_nil_of_le (show fss.length ≤ firstStarved pending k by omega)]

/-- The progress law on a block of a `RECV` and a `generic` read, with the read
fact of the first queued: the first completes at `3 + 5` cycles and the call
stalls on the second. -/
theorem iterate_progress_recv_then_starved :
    iterate ⟨true, 0, 1, fun _ => [0], 1⟩
      { init 1 with
        enabled := true
        basicBlockQueue := [⟨false, [⟨.recv, [⟨.memory, .read⟩], 3⟩, ⟨.generic, [⟨.memory, .read⟩], 2⟩]⟩,
          ⟨true, []⟩]
        dynamicInfoQueue := [.memoryRead 0 5] } =
      .ok { init 1 with
        enabled := true
        basicBlockQueue := [⟨false, [⟨.recv, [⟨.memory, .read⟩], 3⟩, ⟨.generic, [⟨.memory, .read⟩], 2⟩]⟩,
          ⟨true, []⟩]
        currentInsIndex := 1
        cycleCount := 8
        derived := ⟨1⟩ } :=
  @iterate_progress _ _ rfl rfl
    ⟨false, [⟨.recv, [⟨.memory, .read⟩], 3⟩, ⟨.generic, [⟨.memory, .read⟩], 2⟩]⟩ ⟨true, []⟩ [] rfl
    (by decide) [[.memoryRead 0 5], [.memoryRead 0 9]] 1 [] (by decide) rfl (fun _ => rfl) (by decide)

/-- Without the cap the law fails: one block of 5000 single-read instructions,
with their 5000 read facts queued, makes `iterate` fail at the first
instruction, which `getDynamicInstructionInfo` refuses to read. -/
theorem iterate_queue_at_cap :
    let rd : Instruction := ⟨.generic, [⟨.memory, .read⟩], 0⟩
    iterate ⟨true, 0, 1, fun _ => [0], 1⟩
      { init 1 with
        enabled := true
        basicBlockQueue := [⟨false, List.replicate 5000 rd⟩, ⟨true, []⟩]
        dynamicInfoQueue := List.replicate 5000 (.memoryRead 0 1) } =
      .error "Dynamic info queue is growing too big." := by
  intro rd
  rw [iterate, CorePerfModel.iterate]
  apply iterateBlocks_cons_fatal (List.cons_ne_nil _ _)
  apply iterateInstructions_cons_fatal
  exact handleInstruction_cap (List.length_replicate 5000 _).ge rfl

end Graphite.MagicPepPerformanceModel
