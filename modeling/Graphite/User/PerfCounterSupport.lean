import Graphite.Basic
import Mathlib.Data.Fintype.Fin
import Mathlib.Data.Finset.Max

/-!
# The collective model switches

`CarbonEnableModels`, `CarbonDisableModels` and `CarbonResetModels` each wait on
`models_barrier`, let the thread of core index 0 of each process switch the
models of its process, and wait on the barrier again. `models_barrier` is the
barrier `CarbonInitModels` creates for `getApplicationCores()` threads.

Every thread runs the same list of collectives. A thread's program counter
stands at a point of collective `r` (`point r ph`): before the call, in the
first wait, at the test of `getCurrentCoreIndex()`, inside the switch, before
the second wait, in the second wait. `step` moves one thread on. The barrier is
modelled from the spec, since the sync server is not in the sources: a thread
leaves its `k`-th wait only once every thread has begun its `k`-th wait. A
schedule is any list of threads, so every interleaving is a run, and a thread
that is blocked does nothing when it is scheduled.

Main results:
* `Inv.run`: in every state a run reaches, no thread has left more waits than
  any thread has begun (`Inv.barrier`).
* `run_collectives`: every reachable state is `Ordered`. A switch starts only
  once every thread has entered its collective. No thread returns from a
  collective before every switch of it has completed. While a switch is in
  progress, every thread is inside that collective. When each process has one
  thread of core index 0, a process's models go through the collectives in
  order.
* `run_progress`: the collectives never deadlock; under every schedule some
  thread can move on until every thread has returned from every collective.
-/

namespace Graphite.PerfCounterSupport

/-- The collective a thread calls. -/
inductive Collective
  | carbonEnableModels
  | carbonDisableModels
  | carbonResetModels
  deriving DecidableEq, Repr

/-- The points of a thread's code in one collective: before the call, in the
first `CarbonBarrierWait`, at the test `getCurrentCoreIndex() == 0`, inside
`enablePerformanceModelsInCurrentProcess` (or its disable or reset), before the
second `CarbonBarrierWait`, and in it. -/
inductive Phase
  | call
  | firstWait
  | test
  | switching
  | secondCall
  | secondWait
  deriving DecidableEq, Repr

def Phase.index : Phase → Nat
  | call => 0
  | firstWait => 1
  | test => 2
  | switching => 3
  | secondCall => 4
  | secondWait => 5

/-- The program counter of a thread at `ph` in collective `r`. -/
def point (r : Nat) (ph : Phase) : Nat :=
  6 * r + ph.index

/-- The waits a thread at `pc` has begun: the first wait of collective `r` at
`point r .firstWait`, its second at `point r .secondWait`. -/
def waitsBegun (pc : Nat) : Nat :=
  (pc + 5) / 6 + (pc + 1) / 6

/-- The waits a thread at `pc` has left: the first wait of collective `r` at
`point r .test`, its second at `point (r + 1) .call`. -/
def waitsLeft (pc : Nat) : Nat :=
  (pc + 4) / 6 + pc / 6

variable (cfg : Config)

/-- Where the `getApplicationCores()` threads run: the process of each, and its
`getCurrentCoreIndex()`. -/
structure Placement where
  process : Fin cfg.applicationCores → Nat
  coreIndex : Fin cfg.applicationCores → Nat

/-- The threads' program counters, and for each process the switches its models
went through, in order. -/
structure State where
  pc : Fin cfg.applicationCores → Nat
  switched : Nat → List Collective

/-- Every thread before its first collective. -/
def start : State cfg :=
  ⟨fun _ => 0, fun _ => []⟩

variable {cfg} (prog : List Collective) (pl : Placement cfg)

/-- Thread `i` moves on, or `none` when it is blocked in a wait or has returned
from every collective of `prog`. -/
def step (i : Fin cfg.applicationCores) (s : State cfg) : Option (State cfg) :=
  let moveTo (n : Nat) : State cfg := { s with pc := Function.update s.pc i n }
  match s.pc i % 6 with
  -- call the next collective and begin its first wait
  | 0 => if s.pc i / 6 < prog.length then some (moveTo (s.pc i + 1)) else none
  | 2 => some (moveTo (if pl.coreIndex i = 0 then s.pc i + 1 else s.pc i + 2))
  -- complete the switch of this collective
  | 3 => some { moveTo (s.pc i + 1) with
      switched := Function.update s.switched (pl.process i)
        (s.switched (pl.process i) ++ prog[s.pc i / 6]?.toList) }
  -- begin the second wait
  | 4 => some (moveTo (s.pc i + 1))
  -- leave a wait
  | _ => if ∀ j, waitsLeft (s.pc i) < waitsBegun (s.pc j) then some (moveTo (s.pc i + 1)) else none

/-- The threads of the schedule `sched` move on in turn; a blocked one does
nothing. -/
def run : List (Fin cfg.applicationCores) → State cfg → State cfg
  | [], s => s
  | i :: sched, s => run sched ((step prog pl i s).getD s)

/-! ## What a step does -/

variable {prog pl}

/-! ### Waits begun and left -/

theorem waitsLeft_le_waitsBegun (pc : Nat) : waitsLeft pc ≤ waitsBegun pc := by
  unfold waitsLeft waitsBegun
  omega

theorem waitsBegun_mono {a b : Nat} (h : a ≤ b) : waitsBegun a ≤ waitsBegun b := by
  unfold waitsBegun
  omega

/-- At a wait, a thread has begun one more wait than it has left. -/
theorem waitsLeft_lt_waitsBegun {pc : Nat} (h : pc % 6 = 1 ∨ pc % 6 = 5) :
    waitsLeft pc < waitsBegun pc := by
  unfold waitsLeft waitsBegun
  omega

/-- Leaving a wait. -/
theorem waitsLeft_succ {pc : Nat} (h : pc % 6 = 1 ∨ pc % 6 = 5) : waitsLeft (pc + 1) = waitsLeft pc + 1 := by
  unfold waitsLeft
  omega

/-- Every other move keeps the waits left. -/
theorem waitsLeft_of_move {pc n : Nat} (h : ¬(pc % 6 = 1 ∨ pc % 6 = 5))
    (hn : n = pc + 1 ∨ n = pc + 2 ∧ pc % 6 = 2) : waitsLeft n = waitsLeft pc := by
  unfold waitsLeft
  omega

/-- Once one thread has left the first wait of collective `r`, a thread that
has begun every wait it left has entered collective `r`. -/
theorem firstWait_le {a b r : Nat} (h : waitsLeft a ≤ waitsBegun b) (ha : point r .test ≤ a) :
    point r .firstWait ≤ b := by
  simp only [waitsLeft, waitsBegun, point, Phase.index] at *
  omega

/-- Once one thread has returned from collective `r`, every thread is in its
second wait of collective `r` or past it. -/
theorem secondWait_le {a b r : Nat} (h : waitsLeft a ≤ waitsBegun b) (ha : point (r + 1) .call ≤ a) :
    point r .secondWait ≤ b := by
  simp only [waitsLeft, waitsBegun, point, Phase.index] at *
  omega

/-! ### One step -/

/-- A step of thread `i` moves it one point on, or two past the switch when its
core index is not 0. It calls a collective only if one is left, leaves a wait
only once every thread has begun that wait, and adds a switch to its process
only on completing one. -/
theorem step_spec {i : Fin cfg.applicationCores} {s t : State cfg} (h : step prog pl i s = some t) :
    ∃ n, t.pc = Function.update s.pc i n ∧
      (n = s.pc i + 1 ∨ n = s.pc i + 2 ∧ s.pc i % 6 = 2 ∧ pl.coreIndex i ≠ 0) ∧
      (n % 6 = 3 → pl.coreIndex i = 0) ∧
      (s.pc i % 6 = 0 → s.pc i / 6 < prog.length) ∧
      (s.pc i % 6 = 1 ∨ s.pc i % 6 = 5 → ∀ j, waitsLeft (s.pc i) < waitsBegun (s.pc j)) ∧
      t.switched = if s.pc i % 6 = 3 then
        Function.update s.switched (pl.process i) (s.switched (pl.process i) ++ prog[s.pc i / 6]?.toList)
      else s.switched := by
  unfold step at h
  split at h
  · next h0 =>
    split at h
    · next hlt =>
      cases h
      exact ⟨_, rfl, .inl rfl, by omega, fun _ => hlt, by omega, by simp [h0]⟩
    · cases h
  · next h2 =>
    cases h
    by_cases hc : pl.coreIndex i = 0
    · exact ⟨_, by simp [hc], .inl rfl, fun _ => hc, by omega, by omega, by simp [h2]⟩
    · exact ⟨_, by simp [hc], .inr ⟨rfl, h2, hc⟩, by omega, by omega, by omega, by simp [h2]⟩
  · next h3 =>
    cases h
    exact ⟨_, rfl, .inl rfl, by omega, by omega, by omega, by simp [h3]⟩
  · next h4 =>
    cases h
    exact ⟨_, rfl, .inl rfl, by omega, by omega, by omega, by simp [h4]⟩
  · next h0 h2 h3 _ =>
    have : s.pc i % 6 ≠ 0 ∧ s.pc i % 6 ≠ 2 ∧ s.pc i % 6 ≠ 3 := ⟨h0, h2, h3⟩
    split at h
    · next hj =>
      cases h
      exact ⟨_, rfl, .inl rfl, by omega, by omega, fun _ => hj, by simp [this.2.2]⟩
    · cases h

/-! ## The invariant -/

variable (prog pl) in
/-- The invariant of the collectives, when the thread of core index 0 of a
process is its only one (`hone`). -/
structure Inv (s : State cfg) : Prop where
  /-- No thread has left a wait that some thread has not begun. -/
  barrier : ∀ i j, waitsLeft (s.pc i) ≤ waitsBegun (s.pc j)
  /-- No thread is past the end of `prog`. -/
  le_length : ∀ i, s.pc i ≤ 6 * prog.length
  /-- Only a thread of core index 0 switches. -/
  switching : ∀ i, s.pc i % 6 = 3 → pl.coreIndex i = 0
  /-- The models of the process of a thread of core index 0 went through the
  switches it completed, in the order of `prog`. -/
  switched : ∀ L, pl.coreIndex L = 0 → s.switched (pl.process L) = prog.take ((s.pc L + 2) / 6)

theorem inv_start : Inv prog pl (start cfg) where
  barrier _ _ := by simp [start, waitsLeft, waitsBegun]
  le_length _ := Nat.zero_le _
  switching _ h := by simp [start] at h
  switched _ _ := by simp [start]

section Step

variable {s t : State cfg} {i : Fin cfg.applicationCores}

theorem pc_of_step_self {n : Nat} (hpc : t.pc = Function.update s.pc i n) : t.pc i = n := by
  rw [hpc, Function.update_same]

theorem pc_of_step_other {n : Nat} (hpc : t.pc = Function.update s.pc i n) {j : Fin cfg.applicationCores}
    (hj : j ≠ i) : t.pc j = s.pc j := by
  rw [hpc, Function.update_noteq hj]

theorem Inv.barrier_of_step (hs : Inv prog pl s) (h : step prog pl i s = some t) (a b : Fin cfg.applicationCores) :
    waitsLeft (t.pc a) ≤ waitsBegun (t.pc b) := by
  obtain ⟨n, hpc, hn, -, -, hwait, -⟩ := step_spec h
  have hb' : waitsBegun (s.pc b) ≤ waitsBegun (t.pc b) := by
    by_cases hb : b = i
    · rw [hb, pc_of_step_self hpc]
      exact waitsBegun_mono (by rcases hn with hn | hn <;> omega)
    · rw [pc_of_step_other hpc hb]
  by_cases ha : a = i
  · rw [ha, pc_of_step_self hpc]
    by_cases hb : b = i
    · rw [hb, pc_of_step_self hpc]
      exact waitsLeft_le_waitsBegun n
    by_cases hw : s.pc i % 6 = 1 ∨ s.pc i % 6 = 5
    · rw [hn.resolve_right fun h => by omega, waitsLeft_succ hw]
      exact (hwait hw b).trans_le hb'
    · rw [waitsLeft_of_move hw (hn.imp_right fun h => ⟨h.1, h.2.1⟩)]
      exact (hs.barrier i b).trans hb'
  · rw [pc_of_step_other hpc ha]
    exact (hs.barrier a b).trans hb'

theorem Inv.le_length_of_step (hs : Inv prog pl s) (h : step prog pl i s = some t) (a : Fin cfg.applicationCores) :
    t.pc a ≤ 6 * prog.length := by
  obtain ⟨n, hpc, hn, -, hcall, -, -⟩ := step_spec h
  by_cases ha : a = i
  · have hlen := hs.le_length i
    rw [ha, pc_of_step_self hpc]
    by_cases h0 : s.pc i % 6 = 0
    · have := hcall h0
      rcases hn with hn | hn <;> omega
    · rcases hn with hn | hn <;> omega
  · rw [pc_of_step_other hpc ha]
    exact hs.le_length a

theorem Inv.switching_of_step (hs : Inv prog pl s) (h : step prog pl i s = some t) (a : Fin cfg.applicationCores)
    (ha : t.pc a % 6 = 3) : pl.coreIndex a = 0 := by
  obtain ⟨n, hpc, -, hsw, -, -, -⟩ := step_spec h
  by_cases hai : a = i
  · rw [hai, pc_of_step_self hpc] at ha
    rw [hai]
    exact hsw ha
  · rw [pc_of_step_other hpc hai] at ha
    exact hs.switching a ha

theorem Inv.switched_of_step
    (hone : ∀ i j, pl.process i = pl.process j → pl.coreIndex i = 0 → pl.coreIndex j = 0 → i = j)
    (hs : Inv prog pl s) (h : step prog pl i s = some t) (L : Fin cfg.applicationCores) (hL : pl.coreIndex L = 0) :
    t.switched (pl.process L) = prog.take ((t.pc L + 2) / 6) := by
  obtain ⟨n, hpc, hn, -, -, -, hsw⟩ := step_spec h
  rw [hsw]
  by_cases hLi : L = i
  · rw [hLi] at hL ⊢
    have hlen := hs.le_length i
    rw [pc_of_step_self hpc, hn.resolve_right fun h => h.2.2 hL]
    by_cases h3 : s.pc i % 6 = 3
    · rw [if_pos h3, Function.update_same, hs.switched i hL,
        show (s.pc i + 2) / 6 = s.pc i / 6 by omega, ← List.take_succ]
      congr 1
      omega
    · rw [if_neg h3, hs.switched i hL]
      congr 1
      omega
  · rw [pc_of_step_other hpc hLi]
    split_ifs with h3
    · have hp : pl.process L ≠ pl.process i := fun hp => hLi (hone L i hp hL (hs.switching i h3))
      rw [Function.update_noteq hp, hs.switched L hL]
    · exact hs.switched L hL

/-- Every step keeps the invariant. -/
theorem Inv.of_step
    (hone : ∀ i j, pl.process i = pl.process j → pl.coreIndex i = 0 → pl.coreIndex j = 0 → i = j)
    (hs : Inv prog pl s) (h : step prog pl i s = some t) : Inv prog pl t :=
  ⟨hs.barrier_of_step h, hs.le_length_of_step h, hs.switching_of_step h, hs.switched_of_step hone h⟩

end Step

/-- Every run keeps the invariant. -/
theorem Inv.run
    (hone : ∀ i j, pl.process i = pl.process j → pl.coreIndex i = 0 → pl.coreIndex j = 0 → i = j)
    {s : State cfg} (hs : Inv prog pl s) (sched : List (Fin cfg.applicationCores)) :
    Inv prog pl (run prog pl sched s) := by
  induction sched generalizing s with
  | nil => exact hs
  | cons i sched ih =>
    apply ih
    cases h : step prog pl i s with
    | none => exact hs
    | some t => exact hs.of_step hone h

/-! ## The order of the switches -/

variable (prog pl) in
/-- What the double barrier guarantees of a state. -/
structure Ordered (s : State cfg) : Prop where
  /-- A thread of core index 0 starts the switch of collective `r` only once
  every thread has entered collective `r`, and every thread of core index 0 has
  completed its switches of the collectives before. -/
  switch_after_entered : ∀ L r, pl.coreIndex L = 0 → point r .switching ≤ s.pc L →
    ∀ j, point r .firstWait ≤ s.pc j ∧ (pl.coreIndex j = 0 → ∀ r' < r, point r' .secondCall ≤ s.pc j)
  /-- No thread returns from collective `r` before every thread of core index 0
  has completed its switch of collective `r`. -/
  return_after_switched : ∀ i r, point (r + 1) .call ≤ s.pc i →
    ∀ L, pl.coreIndex L = 0 → point r .secondCall ≤ s.pc L
  /-- While a thread of core index 0 is inside the switch of collective `r`,
  every thread is inside collective `r`, past the start of its first wait and not
  past its second. -/
  inside_during_switch : ∀ L r, pl.coreIndex L = 0 → s.pc L = point r .switching →
    ∀ j, point r .firstWait ≤ s.pc j ∧ s.pc j ≤ point r .secondWait
  /-- The models of the process of a thread of core index 0 went through the
  switches it completed, in the order of `prog`. -/
  switched_in_order : ∀ L, pl.coreIndex L = 0 →
    s.switched (pl.process L) = prog.take ((s.pc L + 2) / 6)

theorem Inv.ordered {s : State cfg} (hs : Inv prog pl s) : Ordered prog pl s where
  switch_after_entered L r _ hL j := by
    have := firstWait_le (hs.barrier L j) (r := r) (by simp only [point, Phase.index] at *; omega)
    simp only [point, Phase.index] at *
    exact ⟨this, fun _ _ _ => by omega⟩
  return_after_switched i r hi L _ := by
    have := secondWait_le (hs.barrier i L) hi
    simp only [point, Phase.index] at *
    omega
  inside_during_switch L r _ hL j := by
    refine ⟨firstWait_le (hs.barrier L j) (r := r) (by simp only [point, Phase.index] at *; omega), ?_⟩
    by_contra hj
    have := secondWait_le (hs.barrier j L) (r := r) (by simp only [point, Phase.index] at *; omega)
    simp only [point, Phase.index] at *
    omega
  switched_in_order := hs.switched

/-- Under every schedule, when each process has at most one thread of core
index 0, the collectives switch the models in the order the double barrier is
meant to give. -/
theorem run_collectives
    (hone : ∀ i j, pl.process i = pl.process j → pl.coreIndex i = 0 → pl.coreIndex j = 0 → i = j)
    (sched : List (Fin cfg.applicationCores)) : Ordered prog pl (run prog pl sched (start cfg)) :=
  (inv_start.run hone sched).ordered

/-- Two processes of one thread each enable their models together. -/
theorem run_collectives_two_processes :
    Ordered [.carbonEnableModels] ⟨fun i => i.val, fun _ => 0⟩
      (run [.carbonEnableModels] ⟨fun i => i.val, fun _ => 0⟩ [0, 1, 0, 1, 0, 1, 0, 1, 0, 1, 0, 1]
        (start ⟨true, 9, 2, fun p => [p], 2⟩)) :=
  run_collectives (by decide) _

example : (@run ⟨true, 9, 2, fun p => [p], 2⟩ [.carbonEnableModels] ⟨fun i => i.val, fun _ => 0⟩
    [0, 1, 0, 1, 0, 1, 0, 1, 0, 1, 0, 1] (start _)).switched 1 = [.carbonEnableModels] := by
  decide

/-! ## Progress -/

/-- The thread furthest behind can always move on, unless every thread has
returned from every collective. -/
theorem Inv.progress {s : State cfg} (hs : Inv prog pl s) :
    (∀ i, s.pc i = 6 * prog.length) ∨ ∃ i t, step prog pl i s = some t := by
  by_cases hN : cfg.applicationCores = 0
  · exact .inl fun i => absurd i.isLt (by omega)
  obtain ⟨m, -, hm⟩ := Finset.exists_min_image Finset.univ s.pc
    (Finset.univ_nonempty_iff.mpr ⟨⟨0, by omega⟩⟩)
  by_cases hdone : s.pc m = 6 * prog.length
  · exact .inl fun i => by have := hm i (Finset.mem_univ _); have := hs.le_length i; omega
  refine .inr ⟨m, ?_⟩
  unfold step
  split
  · next h0 =>
    have := hs.le_length m
    rw [if_pos (by omega)]
    exact ⟨_, rfl⟩
  · exact ⟨_, rfl⟩
  · exact ⟨_, rfl⟩
  · exact ⟨_, rfl⟩
  · next h0 h2 h3 h4 =>
    have hw : s.pc m % 6 = 1 ∨ s.pc m % 6 = 5 := by
      have : s.pc m % 6 ≠ 0 ∧ s.pc m % 6 ≠ 2 ∧ s.pc m % 6 ≠ 3 ∧ s.pc m % 6 ≠ 4 := ⟨h0, h2, h3, h4⟩
      omega
    rw [if_pos fun j => (waitsLeft_lt_waitsBegun hw).trans_le (waitsBegun_mono (hm j (Finset.mem_univ _)))]
    exact ⟨_, rfl⟩

/-- Under every schedule, when each process has at most one thread of core
index 0, the collectives never deadlock: some thread can move on until every
thread has returned from every collective. -/
theorem run_progress
    (hone : ∀ i j, pl.process i = pl.process j → pl.coreIndex i = 0 → pl.coreIndex j = 0 → i = j)
    (sched : List (Fin cfg.applicationCores)) :
    (∀ i, (run prog pl sched (start cfg)).pc i = 6 * prog.length) ∨
      ∃ i t, step prog pl i (run prog pl sched (start cfg)) = some t :=
  (inv_start.run hone sched).progress

/-- After the first two steps of two threads, one more thread can move. -/
theorem run_progress_two_processes :
    (∀ i, (run [.carbonEnableModels] ⟨fun i => i.val, fun _ => 0⟩ [0, 1]
        (start ⟨true, 9, 2, fun p => [p], 2⟩)).pc i = 6 * 1) ∨
      ∃ i t, step [.carbonEnableModels] ⟨fun i => i.val, fun _ => 0⟩ i
        (run [.carbonEnableModels] ⟨fun i => i.val, fun _ => 0⟩ [0, 1]
          (start ⟨true, 9, 2, fun p => [p], 2⟩)) = some t :=
  run_progress (by decide) _

end Graphite.PerfCounterSupport
