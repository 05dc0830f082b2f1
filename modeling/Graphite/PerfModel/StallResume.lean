import Graphite.PerfModel.Progress
import Graphite.PerfModel.Run

/-!
# Stalls are transparent to the producer

The functional side queues blocks and pushes the bundles of their
instructions; `iterate` is called in between, any number of times, and stalls
whenever the next bundle is not in yet. `run_stall_resume`: however the calls
interleave, as long as every `iterate` finds the facts pushed so far ending at
a bundle boundary (`Aligned`) and fewer than 5000 facts queued (`BelowCap`), a
final `iterate` leaves one state, the one of pushing everything first: every
block but the last drained, the cursor at 0, the facts beyond the bundles
queued, and each instruction costed once with its own bundle.

The invariant is `Reached`: the blocks `popped` are drained, the queue `q`
holds the rest with the cursor in its head (`Position`), and exactly the
bundles of the `done` instructions are consumed and charged. Every call keeps
it (`step_feed`, `iterate_reached`), so every prefix of the run reaches it
(`run_take_reached`). The step of `iterate` is `iterate_progress`, read on the
whole instruction stream.
-/

namespace Graphite.MagicPepPerformanceModel

open CorePerfModel

/-! ## The producer's calls -/

/-- The blocks a call queues when the gate is open. -/
def Op.queued : Op → List BasicBlock
  | .queueDynamicInstruction i => [⟨true, [i]⟩]
  | .queueBasicBlock b => [b]
  | _ => []

/-- The facts a call pushes when the gate is open. -/
def Op.pushed : Op → List DynamicInstructionInfo
  | .pushDynamicInstructionInfo f => [f]
  | _ => []

/-- The producer's calls, and `iterate`. -/
def Op.isFeedOrIterate : Op → Bool
  | .queueDynamicInstruction _ | .queueBasicBlock _ | .pushDynamicInstructionInfo _ | .iterate => true
  | _ => false

/-- The blocks `ops` queue, in order. -/
def blocksOf (ops : List Op) : List BasicBlock := ops.flatMap Op.queued

theorem Op.queued_eq_nil_or (o : Op) : o.queued = [] ∨ ∃ b, o.queued = [b] := by
  cases o <;> simp [Op.queued]

/-- The facts `ops` push, in order. -/
def factsOf (ops : List Op) : List DynamicInstructionInfo := ops.flatMap Op.pushed

/-- The facts pushed so far end at a bundle boundary: they are the bundles of
the first `k` instructions, or begin with all the bundles. -/
def Aligned (fss : List (List DynamicInstructionInfo)) (pf : List DynamicInstructionInfo) : Prop :=
  (∃ k, k ≤ fss.length ∧ pf = (fss.take k).flatten) ∨ fss.flatten <+: pf

instance (fss : List (List DynamicInstructionInfo)) (pf : List DynamicInstructionInfo) :
    Decidable (Aligned fss pf) :=
  inferInstanceAs (Decidable (_ ∨ _))

/-- The run so far failed, or left fewer than 5000 facts queued. -/
def BelowCap : Except String MagicPepPerformanceModel → Prop
  | .ok t => t.dynamicInfoQueue.length < 5000
  | .error _ => True

instance : DecidablePred BelowCap
  | .ok t => inferInstanceAs (Decidable (t.dynamicInfoQueue.length < 5000))
  | .error _ => inferInstanceAs (Decidable True)

theorem Aligned.exists {fss : List (List DynamicInstructionInfo)} {pf : List DynamicInstructionInfo}
    (h : Aligned fss pf) : ∃ k E, pf = (fss.take k).flatten ++ E ∧ (k < fss.length → E = []) := by
  rcases h with ⟨k, -, rfl⟩ | ⟨E, rfl⟩
  · exact ⟨k, [], (List.append_nil _).symm, fun _ => rfl⟩
  · exact ⟨fss.length, E, by rw [List.take_length], fun h => absurd h (lt_irrefl _)⟩

/-! ## Lists of bundles -/

theorem prefix_flatMap {α β : Type} {l l' : List α} (h : l <+: l') (f : α → List β) :
    l.flatMap f <+: l'.flatMap f := by
  obtain ⟨t, rfl⟩ := h
  rw [List.flatMap_append]
  exact List.prefix_append _ _

theorem prefix_dropLast {α : Type} {l l' : List α} (h : l <+: l') : l.dropLast <+: l'.dropLast := by
  obtain ⟨t, rfl⟩ := h
  rcases List.eq_nil_or_concat t with rfl | ⟨t, a, rfl⟩
  · rw [List.append_nil]
  · rw [List.concat_eq_append, ← List.append_assoc, List.dropLast_concat]
    exact (List.dropLast_prefix l).trans (List.prefix_append _ _)

/-- The bundles of the first `m` instructions: those of the first `min m n`,
then those of the next `m - n`. -/
theorem flatten_take_split {α : Type} (G : List (List α)) (m n : Nat) :
    (G.take m).flatten = ((G.take n).take (min m n)).flatten ++ ((G.drop n).take (m - n)).flatten := by
  rw [List.take_take, Nat.min_assoc, Nat.min_self]
  rcases le_total m n with h | h
  · simp [Nat.min_eq_left h, Nat.sub_eq_zero_of_le h]
  · rw [Nat.min_eq_right h, ← List.flatten_append, ← List.take_add, Nat.add_sub_cancel' h]

/-- The facts still queued after the bundles of `d` instructions were
consumed, when the facts pushed end at a bundle boundary `k`. -/
theorem queue_eq_of_aligned {fss : List (List DynamicInstructionInfo)} {d k : Nat}
    {F E : List DynamicInstructionInfo} (h : (fss.take d).flatten ++ F = (fss.take k).flatten ++ E)
    (hE : k < fss.length → E = []) (hd : d ≤ fss.length) :
    F = ((fss.drop d).take (k - d)).flatten ++ E := by
  rcases le_or_lt d k with hdk | hkd
  · rw [← Nat.add_sub_cancel' hdk, List.take_add, List.flatten_append, List.append_assoc] at h
    exact List.append_cancel_left h
  · obtain rfl := hE (by omega)
    have hle := (flatten_take_drop_suffix fss k d).length_le
    rw [Nat.sub_eq_zero_of_le hkd.le, List.take_zero, List.flatten_nil]
    have hl := congrArg List.length h
    rw [← Nat.add_sub_cancel' hkd.le, List.take_add, List.flatten_append] at hl
    simp only [List.length_append, List.append_nil] at hl ⊢
    exact List.eq_nil_of_length_eq_zero (by omega)

/-- Between the first `k` instructions and the first starved one, every
instruction has the empty bundle. -/
theorem flatten_take_firstStarved {is : List Instruction} {fss : List (List DynamicInstructionInfo)}
    (hb : List.Forall₂ IsBundle is fss) (k : Nat) :
    (fss.take (firstStarved is k)).flatten = (fss.take k).flatten := by
  induction hb generalizing k with
  | nil => simp
  | @cons i F is fss hF _ ih =>
    cases k with
    | succ k => simp only [firstStarved_cons_succ, List.take_succ_cons, List.flatten_cons, ih]
    | zero =>
      rw [firstStarved_cons_zero]
      split
      · rfl
      · next hm =>
        rw [List.take_succ_cons, List.flatten_cons, ih, hF.eq_nil (by simpa using hm)]
        rfl

/-- The costs of the first `d + j` instructions: those of the first `d`, then
those of `j` of the `n` after them. -/
theorem sum_take_zipWith_window (ins : List Instruction) (fss : List (List DynamicInstructionInfo))
    {d n j : Nat} (hj : j ≤ n) :
    ((List.zipWith costOf ins fss).take d).sum +
        ((List.zipWith costOf ((ins.drop d).take n) ((fss.drop d).take n)).take j).sum =
      ((List.zipWith costOf ins fss).take (d + j)).sum := by
  rw [sum_take_zipWith_add]
  simp only [List.take_zipWith, List.take_take, Nat.min_eq_left hj]

/-! ## Where the cursor is -/

/-- The length of the head block, or 0 for an empty queue. -/
def headLength : List BasicBlock → Nat
  | [] => 0
  | b :: _ => b.instructions.length

/-- A block queue with its cursor: in the head block, and at 0 in a sentinel. -/
structure Position (q : List BasicBlock) (c : Nat) : Prop where
  le_head : c ≤ headLength q
  sentinel : q.length ≤ 1 → c = 0

/-- The instructions completed: those of the drained blocks, then the head's
up to the cursor. -/
def done (popped : List BasicBlock) (c : Nat) : Nat := (popped.flatMap BasicBlock.instructions).length + c

theorem Position.concat {q : List BasicBlock} {c : Nat} (h : Position q c) (b : BasicBlock) :
    Position (q ++ [b]) c where
  le_head := by
    cases q with
    | nil => simp [h.sentinel (by simp)]
    | cons b' q => exact h.le_head
  sentinel h' := h.sentinel (by simp only [List.length_append, List.length_singleton] at h'; omega)

theorem exists_cons_concat {q : List BasicBlock} (h : 2 ≤ q.length) :
    ∃ b mid last, q = b :: (mid ++ [last]) := by
  match q, h with
  | b :: r, h =>
    have hr : r ≠ [] := by rintro rfl; simp at h
    exact ⟨b, r.dropLast, r.getLast hr, by rw [List.dropLast_append_getLast]⟩

/-- Where `seek` leaves the queue and the cursor, moving at most up to the last
block: on an instruction of a block before it, or at 0 in it. -/
theorem seek_position {b last : BasicBlock} {mid q' : List BasicBlock} {c j c' : Nat}
    (hs : seek (b :: (mid ++ [last])) c j = (q', c'))
    (hj : c + j ≤ b.instructions.length + (mid.flatMap BasicBlock.instructions).length) :
    ∃ Y, b :: (mid ++ [last]) = Y ++ q' ∧ q' ≠ [] ∧ Position q' c' ∧
      (Y.flatMap BasicBlock.instructions).length + c' = c + j ∧ (2 ≤ q'.length → c' < headLength q') := by
  induction mid generalizing b c j
  all_goals
    by_cases h : c + j < b.instructions.length
    · -- the cursor stays in `b`
      rw [seek_cons_of_lt h, Prod.mk.injEq] at hs
      obtain ⟨rfl, rfl⟩ := hs
      exact ⟨[], rfl, List.cons_ne_nil _ _, ⟨h.le, by simp⟩, by simp, fun _ => h⟩
    rw [seek_cons_of_le (by simp) (Nat.not_lt.mp h)] at hs
  · -- `b` is followed by the last block: the cursor moves to 0 in it
    rw [List.nil_append, seek_singleton, Prod.mk.injEq] at hs
    obtain ⟨rfl, rfl⟩ := hs
    simp only [List.flatMap_nil, List.length_nil, Nat.add_zero] at hj
    refine ⟨[b], rfl, List.cons_ne_nil _ _, ⟨by simp [headLength]; omega, fun _ => by omega⟩, ?_, by simp⟩
    simp only [List.flatMap_cons, List.flatMap_nil, List.append_nil]
    omega
  · -- `b` is followed by `m`: `seek` goes on from 0 in `m`
    rename_i m mid ih
    simp only [List.flatMap_cons, List.length_append] at hj
    obtain ⟨Y, hY, hne, hpos, hsum, hlt⟩ := ih hs (by omega)
    refine ⟨b :: Y, congrArg (b :: ·) hY, hne, hpos, ?_, hlt⟩
    simp only [List.flatMap_cons, List.length_append] at hsum ⊢
    omega

/-- The head block and the blocks between it and the last, from the cursor on,
are the instructions after the first `done popped c` of a stream they prefix. -/
theorem pending_eq_take {popped mid : List BasicBlock} {b : BasicBlock} {ins : List Instruction}
    {c : Nat} (hpre : (popped ++ b :: mid).flatMap BasicBlock.instructions <+: ins)
    (hc : c ≤ b.instructions.length) :
    b.instructions.drop c ++ mid.flatMap BasicBlock.instructions =
      (ins.drop (done popped c)).take (b.instructions.drop c ++ mid.flatMap BasicBlock.instructions).length := by
  obtain ⟨t, rfl⟩ := hpre
  have hins : (popped ++ b :: mid).flatMap BasicBlock.instructions ++ t =
      popped.flatMap BasicBlock.instructions ++
        (b.instructions ++ (mid.flatMap BasicBlock.instructions ++ t)) := by simp
  rw [hins, done, List.drop_append, List.drop_append_of_le_length hc, ← List.append_assoc,
    List.take_left' rfl]

/-! ## The invariant -/

section Reached

variable (s0 : MagicPepPerformanceModel) (ins : List Instruction) (fss : List (List DynamicInstructionInfo))

/-- `s0` with the queue `q`, the cursor `c` and the facts `F`, after the first
`d` instructions were costed. -/
def afterCosting (q : List BasicBlock) (c : Nat) (F : List DynamicInstructionInfo) (d : Nat) :
    MagicPepPerformanceModel :=
  { s0 with
    basicBlockQueue := q
    currentInsIndex := c
    dynamicInfoQueue := F
    cycleCount := s0.cycleCount + ((List.zipWith costOf ins fss).take d).sum
    derived := { instructionCount := s0.derived.instructionCount + d } }

/-- What the calls that queued `qb` and pushed `pf` consumed: the blocks
`popped` are drained and `q` is left, with the cursor at `c`; the bundles of the
completed instructions are consumed and the facts `F` are left. -/
structure Consumed (qb : List BasicBlock) (pf : List DynamicInstructionInfo) (popped q : List BasicBlock)
    (c : Nat) (F : List DynamicInstructionInfo) : Prop where
  split : qb = popped ++ q
  ne_nil : q = [] → popped = []
  position : Position q c
  facts : pf = (fss.take (done popped c)).flatten ++ F

/-- The model after the calls that queued `qb` and pushed `pf`. -/
def Reached (qb : List BasicBlock) (pf : List DynamicInstructionInfo) (s : MagicPepPerformanceModel) :
    Prop :=
  ∃ popped q c F, Consumed fss qb pf popped q c F ∧ s = afterCosting s0 ins fss q c F (done popped c)

variable {s0 ins fss}

theorem Consumed.feed {qb popped q : List BasicBlock} {pf F : List DynamicInstructionInfo} {c : Nat}
    (h : Consumed fss qb pf popped q c F) (o : Op) :
    Consumed fss (qb ++ o.queued) (pf ++ o.pushed) popped (q ++ o.queued) c (F ++ o.pushed) := by
  obtain ⟨hs, hne, hpos, hf⟩ := h
  have hf' : pf ++ o.pushed = (fss.take (done popped c)).flatten ++ (F ++ o.pushed) := by
    rw [hf, List.append_assoc]
  rcases o.queued_eq_nil_or with hq | ⟨b, hq⟩
  · rw [hq, List.append_nil, List.append_nil]
    exact ⟨hs, hne, hpos, hf'⟩
  · rw [hq]
    exact ⟨by rw [hs, List.append_assoc], fun h => absurd h (by simp), hpos.concat b, hf'⟩

variable {cfg : Config}

/-- A call of the producer on a model whose gate is open. -/
theorem step_feed (hon : isModeling cfg s0 = true) {o : Op} (ho : o.isFeedOrIterate = true)
    (hi : o ≠ .iterate) (q : List BasicBlock) (c : Nat) (F : List DynamicInstructionInfo) (d : Nat) :
    step cfg o (afterCosting s0 ins fss q c F d) =
      .ok (afterCosting s0 ins fss (q ++ o.queued) c (F ++ o.pushed) d) := by
  have hon' : isModeling cfg (afterCosting s0 ins fss q c F d) = true := hon
  cases o <;> simp_all [step, Op.isFeedOrIterate, Op.queued, Op.pushed, queueDynamicInstruction,
    queueBasicBlock, pushDynamicInstructionInfo, afterCosting]

/-- The window `iterate` completes reaches the first `k` instructions, or
the end of the `B - c + M` pending ones, whichever comes first. -/
theorem min_le_done_add {P B M c k j : Nat} (hc : c ≤ B)
    (hj : min (B - c + M) (min (k - (P + c)) (B - c + M)) ≤ j) : min (P + (B + M)) k ≤ P + c + j := by
  omega

/-- With at most one block queued, `iterate` leaves the model as it is, and
every instruction before the last block is done. -/
theorem iterate_reached_short {qb : List BasicBlock} {pf : List DynamicInstructionInfo}
    {popped q : List BasicBlock} {c : Nat} {F : List DynamicInstructionInfo}
    (h : Consumed fss qb pf popped q c F) (hq : q.length < 2) :
    iterate cfg (afterCosting s0 ins fss q c F (done popped c)) =
      .ok (afterCosting s0 ins fss q c F (done popped c)) ∧
      (qb.dropLast.flatMap BasicBlock.instructions).length ≤ done popped c := by
  refine ⟨iterateBlocks_of_length_le_one (show q.length ≤ 1 by omega) _, ?_⟩
  rw [h.split]
  rcases q with _ | ⟨x, _ | ⟨y, r⟩⟩
  · simp [h.ne_nil rfl, done]
  · simp [List.dropLast_append_of_ne_nil, done, h.position.sentinel (by simp)]
  · simp only [List.length_cons] at hq
    omega

/-- One `iterate` keeps the invariant, when the facts pushed end at a bundle
boundary `k` and fewer than 5000 are queued; it completes at least the first
`k` queued instructions before the last block, and stops in a block before the
last only on an instruction of it. -/
theorem iterate_reached (hen : s0.enabled = true) (hcfg : cfg.enablePerformanceModeling = true)
    (hb : List.Forall₂ IsBundle ins fss) {qb : List BasicBlock} {pf : List DynamicInstructionInfo}
    (hpre : qb.dropLast.flatMap BasicBlock.instructions <+: ins) {k : Nat}
    {E : List DynamicInstructionInfo} (hpf : pf = (fss.take k).flatten ++ E) (hE : k < fss.length → E = [])
    {popped q : List BasicBlock} {c : Nat} {F : List DynamicInstructionInfo}
    (h : Consumed fss qb pf popped q c F) (hcap : F.length < 5000) :
    ∃ popped' q' c' F', Consumed fss qb pf popped' q' c' F' ∧
      iterate cfg (afterCosting s0 ins fss q c F (done popped c)) =
        .ok (afterCosting s0 ins fss q' c' F' (done popped' c')) ∧
      min (qb.dropLast.flatMap BasicBlock.instructions).length k ≤ done popped' c' ∧
      (2 ≤ q'.length → c' < headLength q') := by
  rcases Nat.lt_or_ge q.length 2 with hq | hq
  · -- at most one block: `iterate` does nothing
    obtain ⟨hit, hle⟩ := iterate_reached_short h hq
    exact ⟨popped, q, c, F, h, hit, (min_le_left _ _).trans hle, by omega⟩
  -- the head block `b`, the blocks `mid` and the last block
  obtain ⟨b, mid, last, rfl⟩ := exists_cons_concat hq
  have hc : c ≤ b.instructions.length := h.position.le_head
  have hdl : qb.dropLast = popped ++ b :: mid := by
    rw [h.split, show popped ++ b :: (mid ++ [last]) = (popped ++ b :: mid) ++ [last] by simp,
      List.dropLast_concat]
  rw [hdl] at hpre ⊢
  have hpend := pending_eq_take hpre hc
  generalize hn : (b.instructions.drop c ++ mid.flatMap BasicBlock.instructions).length = n at hpend
  have hlen : done popped c + n ≤ fss.length := by
    have := hpre.length_le
    simp only [List.flatMap_append, List.flatMap_cons, List.length_append, List.length_drop] at this hn
    rw [← hb.length_eq]; simp only [done]; omega
  -- the pending instructions, their bundles and the queued facts
  have hbund : List.Forall₂ IsBundle (b.instructions.drop c ++ mid.flatMap BasicBlock.instructions)
      ((fss.drop (done popped c)).take n) := by
    rw [hpend]; exact List.forall₂_take _ (List.forall₂_drop _ hb)
  have hF := queue_eq_of_aligned (h.facts.symm.trans hpf) hE (by omega)
  rw [flatten_take_split _ _ n] at hF
  have hR : min (k - done popped c) n < ((fss.drop (done popped c)).take n).length →
      ((fss.drop (done popped c + n)).take (k - done popped c - n)).flatten ++ E = [] := by
    intro hlt
    simp only [List.length_take, List.length_drop] at hlt
    rw [Nat.sub_eq_zero_of_le (by omega), hE (by omega)]
    rfl
  rw [List.drop_drop] at hF
  -- where `iterate` stops
  obtain ⟨j, hj⟩ : ∃ j, firstStarved (b.instructions.drop c ++ mid.flatMap BasicBlock.instructions)
      (min (k - done popped c) n) = j := ⟨_, rfl⟩
  have hjn : j ≤ n := hj ▸ hn ▸ firstStarved_le _ _
  have hjk : min n (min (k - done popped c) n) ≤ j := hj ▸ hn ▸ min_le_firstStarved _ _
  rcases hseek : seek (b :: (mid ++ [last])) c j with ⟨q', c'⟩
  obtain ⟨Y, hY, hne, hpos, hsum, hlt⟩ := seek_position hseek (by
    simp only [List.length_append, List.length_drop] at hn; omega)
  have hdone : done (popped ++ Y) c' = done popped c + j := by
    simp only [done, List.flatMap_append, List.length_append]; omega
  refine ⟨popped ++ Y, q', c', ((fss.drop (done popped c + n)).take (k - done popped c - n)).flatten ++ E,
    ⟨?_, fun h => absurd h hne, hpos, ?_⟩, ?_, ?_, hlt⟩
  · rw [h.split, hY, List.append_assoc]
  · -- the facts consumed are the bundles of the completed instructions
    rw [hdone, List.take_add, List.flatten_append, h.facts, hF,
      ← flatten_take_firstStarved hbund (min (k - done popped c) n), hj, List.take_take,
      Nat.min_eq_left hjn]
    simp only [List.append_assoc]
  · refine (@iterate_progress cfg (afterCosting s0 ins fss (b :: (mid ++ [last])) c F (done popped c)) hen
      hcfg b last mid rfl hc ((fss.drop (done popped c)).take n) (min (k - done popped c) n)
      (((fss.drop (done popped c + n)).take (k - done popped c - n)).flatten ++ E) hbund
      (hF.trans (List.append_assoc _ _ _)) hR hcap).trans ?_
    dsimp only [afterCosting]
    rw [hj, hseek, hdone, ← sum_take_zipWith_window ins fss hjn, ← hpend, add_assoc, Nat.add_assoc]
  · rw [hdone]
    simp only [List.flatMap_append, List.flatMap_cons, List.length_append, List.length_drop] at hn ⊢
    rw [← hn] at hjk
    exact min_le_done_add hc hjk

/-- After every block is queued and every bundle pushed, a position from which
`iterate` completed them all is the last block, with the cursor at 0. -/
theorem Consumed.final {bs popped q : List BasicBlock} {bn : BasicBlock} {pf F : List DynamicInstructionInfo}
    {c : Nat} (h : Consumed fss (bs ++ [bn]) pf popped q c F) (hlt : 2 ≤ q.length → c < headLength q)
    (hdone : (bs.flatMap BasicBlock.instructions).length ≤ done popped c) :
    popped = bs ∧ q = [bn] ∧ c = 0 := by
  obtain ⟨hs, hne, hpos, -⟩ := h
  rcases q with _ | ⟨x, _ | ⟨y, r⟩⟩
  · -- no block left: but the last one is never drained
    rw [hne rfl] at hs
    simp at hs
  · -- one block left: the last
    obtain ⟨rfl, hx⟩ := List.append_inj' hs rfl
    exact ⟨rfl, hx.symm, hpos.sentinel (by simp)⟩
  · -- two or more: the cursor stands on an instruction before the last block
    have hx : c < x.instructions.length := hlt (by simp)
    have hbs : bs = popped ++ x :: (y :: r).dropLast := by
      simpa [List.dropLast_append_of_ne_nil] using congrArg List.dropLast hs
    have hlen := congrArg (fun l => (l.flatMap BasicBlock.instructions).length) hbs
    simp only [List.flatMap_append, List.flatMap_cons, List.length_append] at hlen
    simp only [done] at hdone
    omega

end Reached

/-! ## Runs -/

section Run

variable {cfg : Config} {s0 : MagicPepPerformanceModel} {ins : List Instruction}
  {fss : List (List DynamicInstructionInfo)} {ops : List Op}

/-- Every prefix of a run of producer calls and `iterate` calls reaches the
invariant, when every `iterate` finds the facts aligned and below the cap. -/
theorem run_take_reached (hen : s0.enabled = true) (hcfg : cfg.enablePerformanceModeling = true)
    (hb : List.Forall₂ IsBundle ins fss) (h0 : Reached s0 ins fss [] [] s0)
    (hall : ∀ o ∈ ops, o.isFeedOrIterate = true)
    (hpre : (blocksOf ops).dropLast.flatMap BasicBlock.instructions <+: ins)
    (haligned : ∀ n < ops.length, ops[n]? = some .iterate → Aligned fss (factsOf (ops.take n)))
    (hcap : ∀ n ≤ ops.length, BelowCap (run cfg (ops.take n) s0)) :
    ∀ m ≤ ops.length, ∃ s, run cfg (ops.take m) s0 = .ok s ∧
      Reached s0 ins fss (blocksOf (ops.take m)) (factsOf (ops.take m)) s
  | 0, _ => ⟨s0, rfl, h0⟩
  | m + 1, hm => by
    obtain ⟨s, hrun, popped, q, c, F, hAt, rfl⟩ :=
      run_take_reached hen hcfg hb h0 hall hpre haligned hcap m (by omega)
    obtain ⟨o, ho⟩ : ∃ o, ops[m]? = some o := ⟨ops[m], List.getElem?_eq_getElem (by omega)⟩
    rw [List.take_succ, ho, Option.toList_some]
    by_cases hi : o = .iterate
    · -- `iterate`, on aligned facts below the cap
      subst hi
      obtain ⟨k, E, hpf, hE⟩ := (haligned m (by omega) ho).exists
      have hq := hcap m (by omega)
      rw [hrun] at hq
      have hpm : (blocksOf (ops.take m)).dropLast.flatMap BasicBlock.instructions <+: ins :=
        (prefix_flatMap (prefix_dropLast (prefix_flatMap (List.take_prefix m ops) _)) _).trans hpre
      obtain ⟨popped', q', c', F', hAt', hit, -, -⟩ := iterate_reached hen hcfg hb hpm hpf hE hAt hq
      refine ⟨_, run_concat hrun hit, popped', q', c', F', ?_, rfl⟩
      simpa [blocksOf, factsOf, Op.queued, Op.pushed] using hAt'
    · -- a call of the producer
      have hon : isModeling cfg s0 = true := by simp [isModeling, hen, hcfg]
      refine ⟨_, run_concat hrun (step_feed hon (hall o (List.getElem?_mem ho)) hi q c F _),
        popped, q ++ o.queued, c, F ++ o.pushed, ?_, rfl⟩
      simpa [blocksOf, factsOf] using hAt.feed o

/-- Stall/resume transparency. A model with its gate open and both queues
empty is fed the blocks `bs ++ [bn]` and the bundles `fss` of the
instructions of `bs` (then any facts `R`), with `iterate` calls anywhere in
between that find the facts pushed at a bundle boundary and fewer than 5000
facts queued. A final `iterate` then leaves only `bn`, the cursor at 0 and `R`
queued, and has costed every instruction of `bs` once with its own bundle,
whatever the interleaving. -/
theorem run_stall_resume (hen : s0.enabled = true) (hcfg : cfg.enablePerformanceModeling = true)
    (hq0 : s0.basicBlockQueue = []) (hc0 : s0.currentInsIndex = 0) (hf0 : s0.dynamicInfoQueue = [])
    {bs : List BasicBlock} {bn : BasicBlock} {R : List DynamicInstructionInfo}
    (hb : List.Forall₂ IsBundle (bs.flatMap BasicBlock.instructions) fss)
    (hall : ∀ o ∈ ops, o.isFeedOrIterate = true)
    (hblocks : blocksOf ops = bs ++ [bn]) (hfacts : factsOf ops = fss.flatten ++ R)
    (haligned : ∀ n < ops.length, ops[n]? = some .iterate → Aligned fss (factsOf (ops.take n)))
    (hcap : ∀ n ≤ ops.length, BelowCap (run cfg (ops.take n) s0)) :
    run cfg (ops ++ [.iterate]) s0 = .ok { s0 with
      basicBlockQueue := [bn]
      currentInsIndex := 0
      dynamicInfoQueue := R
      cycleCount := s0.cycleCount + (List.zipWith costOf (bs.flatMap BasicBlock.instructions) fss).sum
      derived := { instructionCount :=
        s0.derived.instructionCount + (bs.flatMap BasicBlock.instructions).length } } := by
  have h0 : Reached s0 (bs.flatMap BasicBlock.instructions) fss [] [] s0 :=
    ⟨[], [], 0, [], ⟨rfl, fun _ => rfl, ⟨le_rfl, fun _ => rfl⟩, rfl⟩, by cases s0; simp_all [afterCosting, done]⟩
  have hpre : (blocksOf ops).dropLast.flatMap BasicBlock.instructions <+: bs.flatMap BasicBlock.instructions := by
    rw [hblocks, List.dropLast_concat]
  obtain ⟨s, hrun, popped, q, c, F, hAt, rfl⟩ :=
    run_take_reached hen hcfg hb h0 hall hpre haligned hcap ops.length le_rfl
  have hq := hcap ops.length le_rfl
  rw [List.take_length] at hrun hAt hq
  rw [hrun] at hq
  rw [hblocks, hfacts] at hAt
  -- the final `iterate`, with every bundle pushed
  obtain ⟨popped', q', c', F', hAt', hit, hmin, hlt⟩ := iterate_reached hen hcfg hb
    (by rw [List.dropLast_concat])
    (show fss.flatten ++ R = (fss.take fss.length).flatten ++ R by rw [List.take_length])
    (fun h => absurd h (lt_irrefl _)) hAt hq
  rw [run_concat hrun (show step cfg .iterate _ = _ from hit)]
  rw [List.dropLast_concat, ← hb.length_eq, Nat.min_self] at hmin
  obtain ⟨rfl, rfl, rfl⟩ := hAt'.final hlt hmin
  have hF : F' = R := by
    have := hAt'.facts
    rwa [done, Nat.add_zero, hb.length_eq, List.take_length, List.append_cancel_left_eq, eq_comm] at this
  subst hF
  simp [afterCosting, done, List.take_of_length_le, hb.length_eq]

/-- The law on a block of a `RECV` read and a `generic` write, then a dynamic
block without memory operands, with `iterate` called after the read's fact
(the first block is still the last: nothing happens) and again after the
dynamic block is queued (the `RECV` completes, the write stalls). -/
theorem run_stall_resume_two_stalls :
    run ⟨true, 0, 1, fun _ => [0], 1⟩
      ([.queueBasicBlock ⟨false, [⟨.recv, [⟨.memory, .read⟩], 3⟩, ⟨.generic, [⟨.memory, .write⟩], 2⟩]⟩,
        .pushDynamicInstructionInfo (.memoryRead 0 5), .iterate,
        .queueDynamicInstruction ⟨.generic, [⟨.reg, .read⟩], 9⟩, .iterate,
        .pushDynamicInstructionInfo (.memoryWrite 8 7), .queueBasicBlock ⟨false, []⟩] ++ [.iterate])
      { init 1 with enabled := true } =
    .ok { init 1 with
      enabled := true
      basicBlockQueue := [⟨false, []⟩]
      cycleCount := 17
      derived := ⟨3⟩ } :=
  (@run_stall_resume _ _ [[.memoryRead 0 5], [.memoryWrite 8 7], []] _ rfl rfl rfl rfl rfl
    [⟨false, [⟨.recv, [⟨.memory, .read⟩], 3⟩, ⟨.generic, [⟨.memory, .write⟩], 2⟩]⟩,
      ⟨true, [⟨.generic, [⟨.reg, .read⟩], 9⟩]⟩] ⟨false, []⟩ []
    (by decide) (by decide) (by rfl) (by rfl) (by decide) (by decide)).trans rfl

/-- Facts pushed `fs` by the producer, with the gate open, are queued in order. -/
theorem run_pushes {s : MagicPepPerformanceModel} (hon : isModeling cfg s = true)
    (fs : List DynamicInstructionInfo) (rest : List Op) :
    run cfg (fs.map Op.pushDynamicInstructionInfo ++ rest) s =
      run cfg rest { s with dynamicInfoQueue := s.dynamicInfoQueue ++ fs } := by
  induction fs generalizing s with
  | nil => simp
  | cons f fs ih =>
    have hstep : step cfg (.pushDynamicInstructionInfo f) s =
        .ok { s with dynamicInfoQueue := s.dynamicInfoQueue ++ [f] } := by
      simp [step, pushDynamicInstructionInfo, hon]
    rw [List.map_cons, List.cons_append, run_cons_of_step hstep,
      ih (show isModeling cfg { s with dynamicInfoQueue := s.dynamicInfoQueue ++ [f] } = true from hon)]
    simp

/-- Without the cap, the law fails: pushing the 5000 facts of a block of 5000
single-read instructions first, the one `iterate` call fails its assertion
instead of draining the block. -/
theorem run_all_pushed_first_at_cap :
    let rd : Instruction := ⟨.generic, [⟨.memory, .read⟩], 0⟩
    run ⟨true, 0, 1, fun _ => [0], 1⟩
      ([.queueBasicBlock ⟨false, List.replicate 5000 rd⟩, .queueBasicBlock ⟨true, []⟩] ++
        List.replicate 5000 (.pushDynamicInstructionInfo (.memoryRead 0 1)) ++ [.iterate])
      { init 1 with enabled := true } = .error "Dynamic info queue is growing too big." := by
  intro rd
  have hq : ∀ b, step ⟨true, 0, 1, fun _ => [0], 1⟩ (.queueBasicBlock b) =
      fun s => .ok (queueBasicBlock ⟨true, 0, 1, fun _ => [0], 1⟩ b s) := fun _ => rfl
  rw [List.append_assoc, List.cons_append, run_cons_of_step (congrFun (hq _) _), List.cons_append,
    List.nil_append, run_cons_of_step (congrFun (hq _) _)]
  rw [show List.replicate 5000 (Op.pushDynamicInstructionInfo (.memoryRead 0 1)) =
      (List.replicate 5000 (DynamicInstructionInfo.memoryRead 0 1)).map Op.pushDynamicInstructionInfo
      from List.map_replicate.symm, run_pushes, run_cons_of_error]
  · show iterate _ _ = _
    rw [iterate, CorePerfModel.iterate]
    apply iterateBlocks_cons_fatal (List.cons_ne_nil _ _)
    apply iterateInstructions_cons_fatal
    exact handleInstruction_cap (List.length_replicate 5000 _).ge rfl
  · rfl

end Run

end Graphite.MagicPepPerformanceModel
