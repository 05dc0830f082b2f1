import Graphite.Basic

/-!
# Message tags and network packets

The LCP and the MCP both dispatch on a message tag: a 32-bit integer that the
header `message_types.h` gives each message. That header is not part of the
sources, so the model takes the numbering as a parameter, `Tags`, and needs only
that distinct messages have distinct numbers. `Tags.decode` is the `switch` on a
tag, and `Tags.decode_value` says that it finds the message a tag was made from.

`readBits` is a typed read through a pointer into a buffer (`*(SInt32*)data`).
`inPacket` turns a read past the end of the packet, which is undefined in the
code, into an error. `NetPacket` is the network's packet, with the fields that
`MCP::run` and `MCP::broadcastPacketToProcesses` read and write.
-/

namespace Graphite

/-- Modelled from the spec: the numbering `message_types.h` gives a closed set of
messages, with distinct messages numbered distinctly. -/
structure Tags (α : Type) where
  /-- The message's tag, as the 32 bits of its `SInt32`. -/
  value : α → BitVec 32
  injective : Function.Injective value

namespace Tags

variable {α : Type} (T : Tags α)

/-- The `switch` on a tag over the messages `all`: the message with that tag. -/
def decode (all : List α) (t : BitVec 32) : Option α :=
  all.find? fun m => T.value m = t

variable {T}

theorem decode_value {all : List α} {m : α} (hm : m ∈ all) : T.decode all (T.value m) = some m := by
  have hex : (T.decode all (T.value m)).isSome := List.find?_isSome.mpr ⟨m, hm, by simp⟩
  obtain ⟨m', hm'⟩ := Option.isSome_iff_exists.mp hex
  rw [hm']
  exact congrArg some (T.injective (by simpa using List.find?_some hm'))

theorem value_of_decode {all : List α} {t : BitVec 32} {m : α} (h : T.decode all t = some m) :
    T.value m = t := by
  simpa using List.find?_some h

end Tags

/-! ## Reads from a buffer -/

/-- `*(T*)(buf + off)` for a `T` of `w` bits, as its bits. -/
def readBits (w : Nat) (buf : List Byte) (off : Nat) : Option (BitVec w) :=
  (readLE buf off (w / 8)).map (BitVec.ofNat w)

/-- The result of a read from the packet: past its end the read is undefined in
the code, and fails here. -/
def inPacket {α : Type} : Option α → Except String α
  | some a => .ok a
  | none => .error "read outside the packet"

@[simp] theorem inPacket_some {α : Type} (a : α) : inPacket (some a) = .ok a := rfl

/-- A word of whole bytes reads back as written. -/
theorem readBits_leBytes (pre post : List Byte) {w : Nat} (hw : w % 8 = 0) (v : BitVec w) :
    readBits w (pre ++ leBytes (w / 8) v.toNat ++ post) pre.length = some v := by
  have h : 256 ^ (w / 8) = 2 ^ w := by
    rw [show (256 : Nat) = 2 ^ 8 from rfl, ← pow_mul]
    congr 1
    omega
  rw [readBits, readLE_leBytes, Option.map_some', h, Nat.mod_eq_of_lt v.isLt]
  simp

theorem readBits_eq_none {buf : List Byte} {w off : Nat} (h : buf.length < off + w / 8) :
    readBits w buf off = none := by
  simp [readBits, readLE_eq_none h]

/-! ## Packets -/

/-- Modelled from the spec: the network packet types (`packet_type.h`) the
control plane sends and matches on. -/
inductive PacketType
  | mcpRequestType
  | mcpSystemType
  | mcpResponseType
  | simThreadUpdateCommMap
  deriving DecidableEq, Repr

/-- `NetPacket`: its type, sending and receiving cores, and payload (`length`
is the payload's length). -/
structure NetPacket where
  type : PacketType
  sender : Nat
  receiver : Nat
  data : List Byte
  deriving DecidableEq, Repr

end Graphite
