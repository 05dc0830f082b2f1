import Graphite.System.Packet

/-!
# The LCP

`LCP::processPacket` reads the tag in the first word of a packet, points `data`
just past it, and hands the packet, or fields read at `data`, to a handler.
`LCP::run` does so for each packet the transport delivers, until the QUIT that
`LCP::finish` sends.

Main results:
* `processPacket_commIdUpdate`: a COMMID_UPDATE packet laid out as its payload
  `{comm_id, core_id}` reaches `updateCommToCoreMap` with both fields.
* `processPacket_threadExit`: a THREAD_EXIT packet is never decoded, whether its
  payload `{thread_id, cycle_count}` is packed or aligned. `*((UInt64*)data+4)`
  adds 4 to a `UInt64*`, so it reads the cycle count 32 bytes past `data`, at
  byte 36 of a packet of 16 or 20 bytes, and not at byte 8 or 12, where the
  sender wrote it.

Both hold for every numbering of the messages (`Tags`); `LcpMessage.tagsInOrder`
is one.
-/

namespace Graphite.LCP

/-- Modelled from the spec: the LCP's messages (`message_types.h`). -/
inductive LcpMessage
  | quit
  | commIdUpdate
  | simulatorFinished
  | simulatorFinishedAck
  | threadSpawnRequestFromRequester
  | threadSpawnRequestFromMaster
  | threadSpawnReplyFromSlave
  | threadExit
  | threadJoinRequest
  deriving DecidableEq, Repr

namespace LcpMessage

/-- The messages the `switch` of `processPacket` has a case for. -/
def all : List LcpMessage :=
  [quit, commIdUpdate, simulatorFinished, simulatorFinishedAck, threadSpawnRequestFromRequester,
    threadSpawnRequestFromMaster, threadSpawnReplyFromSlave, threadExit, threadJoinRequest]

theorem mem_all (m : LcpMessage) : m ∈ all := by
  cases m <;> decide

/-- The LCP's messages numbered in the order above, from 0. -/
def tagsInOrder : Tags LcpMessage where
  value m := BitVec.ofNat 32 m.toCtorIdx
  injective := Function.LeftInverse.injective (g := fun t => ofNat t.toNat) fun m => by cases m <;> rfl

end LcpMessage

/-- What the LCP does with a packet: the handler it calls, with the arguments it
reads (`quit` sets `m_finished`). A spawn or join request is passed on whole
(`(ThreadSpawnRequest*)pkt`). -/
inductive Handler
  | quit
  | updateCommToCoreMap (commId coreId : BitVec 32)
  | handleFinish
  | deallocateProcess
  | masterSpawnThread (req : List Byte)
  | slaveSpawnThread (req : List Byte)
  | masterSpawnThreadReply (req : List Byte)
  | masterOnThreadExit (threadId : BitVec 32) (cycleCount : BitVec 64)
  | masterJoinThread (req : List Byte)
  deriving DecidableEq, Repr

/-- `LCP::updateCommId`: the `CommMapUpdate` `{comm_id, core_id}` at byte `data`
of the packet. `core_id_t` is declared outside the sources; it is read as a
32-bit integer, like `comm_id`. -/
def updateCommId (pkt : List Byte) (data : Nat) : Except String Handler := do
  let commId ← inPacket (readBits 32 pkt data)
  let coreId ← inPacket (readBits 32 pkt (data + 4))
  pure (.updateCommToCoreMap commId coreId)

/-- The `switch` of `LCP::processPacket` on the message `m` of the packet `pkt`,
whose payload starts at `data = pkt + sizeof(SInt32)`. -/
def dispatch (pkt : List Byte) : LcpMessage → Except String Handler
  | .quit => pure .quit
  | .commIdUpdate => updateCommId pkt 4
  | .simulatorFinished => pure .handleFinish
  | .simulatorFinishedAck => pure .deallocateProcess
  | .threadSpawnRequestFromRequester => pure (.masterSpawnThread pkt)
  | .threadSpawnRequestFromMaster => pure (.slaveSpawnThread pkt)
  | .threadSpawnReplyFromSlave => pure (.masterSpawnThreadReply pkt)
  | .threadExit => do
    -- `*((SInt32*)data)` and `*((UInt64*)data+4)`, 4 `UInt64`s past `data`
    return .masterOnThreadExit (← inPacket (readBits 32 pkt 4))
      (← inPacket (readBits 64 pkt (4 + 4 * 8)))
  | .threadJoinRequest => pure (.masterJoinThread pkt)

/-- `LCP::processPacket` on the packet `pkt`. -/
def processPacket (tags : Tags LcpMessage) (pkt : List Byte) : Except String Handler := do
  let msgType ← inPacket (readBits 32 pkt 0)
  match tags.decode LcpMessage.all msgType with
  | some m => dispatch pkt m
  | none => throw "Unexpected message type: %d."

/-- `LCP::run` over the packets the transport delivers, in order: the handlers
called, up to the QUIT that sets `m_finished`. -/
def run (tags : Tags LcpMessage) : List (List Byte) → Except String (List Handler)
  | [] => .ok []
  | pkt :: pkts => do
    let h ← processPacket tags pkt
    if h = .quit then pure [.quit] else (h :: ·) <$> run tags pkts

/-- The packet `LCP::finish` sends: the tag QUIT alone. -/
def quitPacket (tags : Tags LcpMessage) : List Byte :=
  leBytes 4 (tags.value .quit).toNat

variable {tags : Tags LcpMessage}

/-- A packet whose first word is the tag of `m` goes to the case of `m`. -/
theorem processPacket_of_tag {pkt : List Byte} {m : LcpMessage}
    (h : readBits 32 pkt 0 = some (tags.value m)) : processPacket tags pkt = dispatch pkt m := by
  simp only [processPacket, h, inPacket_some, bind, Except.bind,
    Tags.decode_value (LcpMessage.mem_all m)]

/-! ## COMMID_UPDATE -/

/-- Modelled from the spec: a COMMID_UPDATE packet, the tag and then the payload
`{comm_id, core_id}`. -/
def commIdUpdatePacket (tags : Tags LcpMessage) (commId coreId : BitVec 32) : List Byte :=
  leBytes 4 (tags.value .commIdUpdate).toNat ++ leBytes 4 commId.toNat ++ leBytes 4 coreId.toNat

/-- COMMID_UPDATE decoding undoes its encoding. -/
theorem processPacket_commIdUpdate (commId coreId : BitVec 32) :
    processPacket tags (commIdUpdatePacket tags commId coreId) =
      .ok (.updateCommToCoreMap commId coreId) := by
  have htag := readBits_leBytes [] (leBytes 4 commId.toNat ++ leBytes 4 coreId.toNat) (w := 32) rfl
    (tags.value .commIdUpdate)
  have hcomm := readBits_leBytes (leBytes 4 (tags.value .commIdUpdate).toNat) (leBytes 4 coreId.toNat)
    (w := 32) rfl commId
  have hcore := readBits_leBytes (leBytes 4 (tags.value .commIdUpdate).toNat ++ leBytes 4 commId.toNat)
    [] (w := 32) rfl coreId
  simp only [length_leBytes, List.length_append, List.append_nil, List.nil_append,
    List.append_assoc] at htag hcomm hcore
  simp only [commIdUpdatePacket, List.append_assoc]
  rw [processPacket_of_tag htag, dispatch, updateCommId, hcomm, hcore]
  rfl

example : processPacket LcpMessage.tagsInOrder (commIdUpdatePacket LcpMessage.tagsInOrder 7 3) =
    .ok (.updateCommToCoreMap 7 3) := rfl

/-! ## THREAD_EXIT -/

/-- Modelled from the spec: a THREAD_EXIT packet, the tag and then the payload
`{thread_id, cycle_count}`, with 4 bytes of padding between the fields when the
payload is `aligned` (naturally aligned) and none when it is packed. -/
def threadExitPacket (tags : Tags LcpMessage) (threadId : BitVec 32) (cycleCount : BitVec 64)
    (aligned : Bool) : List Byte :=
  leBytes 4 (tags.value .threadExit).toNat ++ leBytes 4 threadId.toNat ++
    List.replicate (if aligned then 4 else 0) 0 ++ leBytes 8 cycleCount.toNat

theorem length_threadExitPacket (threadId : BitVec 32) (cycleCount : BitVec 64) (aligned : Bool) :
    (threadExitPacket tags threadId cycleCount aligned).length = 16 + if aligned then 4 else 0 := by
  cases aligned <;> simp [threadExitPacket]

/-- The cycle count lies at byte 8 (packed) or 12 (aligned) of a THREAD_EXIT
packet, and `processPacket` reads it at byte 36, past the end: it fails for
every thread id, every cycle count and either layout. -/
theorem processPacket_threadExit (threadId : BitVec 32) (cycleCount : BitVec 64) (aligned : Bool) :
    readBits 64 (threadExitPacket tags threadId cycleCount aligned) (if aligned then 12 else 8) =
        some cycleCount ∧
      processPacket tags (threadExitPacket tags threadId cycleCount aligned) =
        .error "read outside the packet" := by
  have htag := readBits_leBytes [] (leBytes 4 threadId.toNat ++
    List.replicate (if aligned then 4 else 0) 0 ++ leBytes 8 cycleCount.toNat) (w := 32) rfl
    (tags.value .threadExit)
  have htid := readBits_leBytes (leBytes 4 (tags.value .threadExit).toNat)
    (List.replicate (if aligned then 4 else 0) 0 ++ leBytes 8 cycleCount.toNat) (w := 32) rfl threadId
  have hcyc := readBits_leBytes (leBytes 4 (tags.value .threadExit).toNat ++ leBytes 4 threadId.toNat ++
    List.replicate (if aligned then 4 else 0) 0) [] (w := 64) rfl cycleCount
  have hpast : readBits 64 (threadExitPacket tags threadId cycleCount aligned) (4 + 4 * 8) = none :=
    readBits_eq_none (by rw [length_threadExitPacket]; split <;> omega)
  simp only [threadExitPacket, length_leBytes, List.length_append, List.length_replicate,
    List.append_nil, List.nil_append, List.append_assoc] at htag htid hcyc hpast ⊢
  constructor
  · convert hcyc using 2
    cases aligned <;> rfl
  · rw [processPacket_of_tag htag, dispatch, htid, hpast]
    rfl

example : processPacket LcpMessage.tagsInOrder (threadExitPacket LcpMessage.tagsInOrder 1 500 true) =
    .error "read outside the packet" := rfl

end Graphite.LCP
