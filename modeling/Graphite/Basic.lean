import Mathlib.Data.BitVec

/-!
# The configuration and the wire

`Config::getSingleton()` (and `g_config`) is a process-wide singleton that every
component of the control plane and the performance models queries. The model
passes it explicitly: a `Config` holds the answers to the queries the modelled
functions make, fixed for a run.

Packets are byte buffers that the LCP and the MCP read by casting a pointer into
them (`*(SInt32*)data`). `readLE` is such a read: the little-endian word of `n`
bytes at an offset, or nothing when the word does not lie inside the buffer;
`leBytes` writes one, and `readLE_leBytes` reads back what it wrote.
-/

namespace Graphite

/-- The answers of `Config` the modelled code asks for:
`getEnablePerformanceModeling()`, which gates every queue of a performance
model, `getMCPCoreNum()`, `getProcessCount()`, `getCoreListForProcess(p)` and
`getApplicationCores()`, the parties of the models barrier. -/
structure Config where
  enablePerformanceModeling : Bool
  mcpCoreNum : Nat
  processCount : Nat
  coreListForProcess : Nat → List Nat
  applicationCores : Nat

/-! ## Bytes -/

abbrev Byte := BitVec 8

/-- The value of little-endian bytes. -/
def leValue : List Byte → Nat
  | [] => 0
  | b :: bs => b.toNat + 256 * leValue bs

/-- The `n` little-endian bytes of `v` (of `v % 256 ^ n`). -/
def leBytes : Nat → Nat → List Byte
  | 0, _ => []
  | n + 1, v => BitVec.ofNat 8 v :: leBytes n (v / 256)

/-- `*(T*)(buf + off)` for a `T` of `n` bytes: the word at byte offset `off`,
or `none` when it does not lie inside the buffer. -/
def readLE (buf : List Byte) (off n : Nat) : Option Nat :=
  if off + n ≤ buf.length then some (leValue ((buf.drop off).take n)) else none

@[simp] theorem length_leBytes (n v : Nat) : (leBytes n v).length = n := by
  induction n generalizing v <;> simp [leBytes, *]

theorem leValue_leBytes (n v : Nat) : leValue (leBytes n v) = v % 256 ^ n := by
  induction n generalizing v with
  | zero => simp [leBytes, leValue, Nat.mod_one]
  | succ n ih =>
    rw [leBytes, leValue, ih, BitVec.toNat_ofNat, pow_succ' 256 n, Nat.mod_mul]

/-- Reading `n` bytes at `off` where `leBytes n v` was written gives `v % 256 ^ n`. -/
theorem readLE_leBytes (pre post : List Byte) (n v : Nat) :
    readLE (pre ++ leBytes n v ++ post) pre.length n = some (v % 256 ^ n) := by
  simp [readLE, List.drop_append_eq_append_drop, List.take_append_eq_append_take,
    leValue_leBytes]

theorem readLE_eq_none {buf : List Byte} {off n : Nat} (h : buf.length < off + n) :
    readLE buf off n = none := by
  simp [readLE, Nat.not_le.mpr h]

end Graphite
