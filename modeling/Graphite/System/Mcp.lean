import Graphite.System.Packet

/-!
# The MCP and its broadcast to processes

`MCP::run` takes one packet of type REQUEST or SYSTEM from the network, reads
the message type in its first word and calls the handler for it. On
BROADCAST_COMM_MAP_UPDATE it retypes the packet as SIM_THREAD_UPDATE_COMM_MAP
and calls `broadcastPacketToProcesses`. That function sends one copy to the
first core of each process in turn and waits for a response after each copy.

The broadcast is a system of three kinds of events, interleaved in any order
(`Event`, `step`): the MCP sends the next copy, a representative core applies a
copy in flight and answers it, and the MCP consumes a response addressed to it.
The network is the list of packets in flight, and a packet may be taken from
anywhere in it, so every delivery order is a run. The representative's side is
not in the sources. It is modelled from the spec: applying the update and
answering with one MCP_RESPONSE_TYPE packet is all that it does, and nothing
else sends such packets.

Main results:
* `Inv.run`: every state a run reaches has sent the copies for the processes
  before `procId`, in order, and consumed their responses, in order. At most
  one packet, the current copy or its response, is in flight.
* `run_can_return`: when every process has a core, a run has at most three
  events per process, and a run that has not returned can always be extended.
* `run_broadcastCommMapUpdate`: `MCP::run` hands a BROADCAST_COMM_MAP_UPDATE to
  the broadcast, and when every process has a core, every order of events
  stops within three events per process, only once the broadcast returned,
  having sent exactly one copy to each process's first core and consumed
  exactly one response from each, in process order, with every process's
  representative having applied the update.
-/

namespace Graphite.MCP

/-- Modelled from the spec: the MCP's messages (`message_types.h`), with the two
cache-counter messages that `perf_counter_support.cc` sends to the MCP. -/
inductive McpMessage
  | sysCall
  | quit
  | mutexInit
  | mutexLock
  | mutexUnlock
  | condInit
  | condWait
  | condSignal
  | condBroadcast
  | barrierInit
  | barrierWait
  | utilizationUpdate
  | broadcastCommMapUpdate
  | resetCacheCounters
  | disableCacheCounters
  deriving DecidableEq, Repr

namespace McpMessage

/-- Every MCP message. -/
def all : List McpMessage :=
  [sysCall, quit, mutexInit, mutexLock, mutexUnlock, condInit, condWait, condSignal, condBroadcast,
    barrierInit, barrierWait, utilizationUpdate, broadcastCommMapUpdate, resetCacheCounters,
    disableCacheCounters]

theorem mem_all (m : McpMessage) : m ∈ all := by
  cases m <;> decide

/-- The MCP's messages numbered in the order above, from 0. -/
def tagsInOrder : Tags McpMessage where
  value m := BitVec.ofNat 32 m.toCtorIdx
  injective := Function.LeftInverse.injective (g := fun t => ofNat t.toNat) fun m => by cases m <;> rfl

end McpMessage

/-- The calls of the sync server. -/
inductive SyncCall
  | mutexInit
  | mutexLock
  | mutexUnlock
  | condInit
  | condWait
  | condSignal
  | condBroadcast
  | barrierInit
  | barrierWait
  deriving DecidableEq, Repr

/-- What `MCP::run` does with a packet: the handler it calls, with the sender of
the request (`quit` sets `m_finished`, `networkModelUpdate` is
`m_network_model_analytical_server.update`), or the packet it broadcasts. -/
inductive Handler
  | handleSyscall (sender : Nat)
  | quit
  | syncServer (call : SyncCall) (sender : Nat)
  | networkModelUpdate (sender : Nat)
  | broadcastPacketToProcesses (pkt : NetPacket)
  deriving DecidableEq, Repr

/-- The `switch` of `MCP::run` on the message `m` of the packet `recvPkt`. -/
def dispatch (recvPkt : NetPacket) : McpMessage → Except String Handler
  | .sysCall => pure (.handleSyscall recvPkt.sender)
  | .quit => pure .quit
  | .mutexInit => pure (.syncServer .mutexInit recvPkt.sender)
  | .mutexLock => pure (.syncServer .mutexLock recvPkt.sender)
  | .mutexUnlock => pure (.syncServer .mutexUnlock recvPkt.sender)
  | .condInit => pure (.syncServer .condInit recvPkt.sender)
  | .condWait => pure (.syncServer .condWait recvPkt.sender)
  | .condSignal => pure (.syncServer .condSignal recvPkt.sender)
  | .condBroadcast => pure (.syncServer .condBroadcast recvPkt.sender)
  | .barrierInit => pure (.syncServer .barrierInit recvPkt.sender)
  | .barrierWait => pure (.syncServer .barrierWait recvPkt.sender)
  | .utilizationUpdate => pure (.networkModelUpdate recvPkt.sender)
  | .broadcastCommMapUpdate =>
    pure (.broadcastPacketToProcesses { recvPkt with type := .simThreadUpdateCommMap })
  | _ => throw "Unhandled MCP message type: %i from %i"

/-- `MCP::run` on the packet `recvPkt` that `netRecv` returned: the message
type is the first `int` of its data (`m_recv_buff >> msg_type`). -/
def run (tags : Tags McpMessage) (recvPkt : NetPacket) : Except String Handler := do
  let msgType ← inPacket (readBits 32 recvPkt.data 0)
  match tags.decode McpMessage.all msgType with
  | some m => dispatch recvPkt m
  | none => throw "Unhandled MCP message type: %i from %i"

theorem run_of_tag {tags : Tags McpMessage} {recvPkt : NetPacket} {m : McpMessage}
    (h : readBits 32 recvPkt.data 0 = some (tags.value m)) : run tags recvPkt = dispatch recvPkt m := by
  simp only [run, h, inPacket_some, bind, Except.bind, Tags.decode_value (McpMessage.mem_all m)]

/-- The request `MCP::finish` sends: QUIT, from the MCP's own network to the
MCP's core, as MCP_SYSTEM_TYPE with `sizeof(msg_type)` bytes. -/
def finish (cfg : Config) (tags : Tags McpMessage) : NetPacket :=
  ⟨.mcpSystemType, cfg.mcpCoreNum, cfg.mcpCoreNum, leBytes 4 (tags.value .quit).toNat⟩

/-- `MCP::run` ends its loop on the request of `MCP::finish`. -/
theorem run_finish (cfg : Config) (tags : Tags McpMessage) : run tags (finish cfg tags) = .ok .quit :=
  (run_of_tag (m := .quit) (readBits_leBytes [] [] rfl _)).trans rfl

/-- `MCP::broadcastPacket(pkt)`: the copies it sends, from the MCP to each of
the `totalCores` cores (`getTotalCores()`), in core order. -/
def broadcastPacket (cfg : Config) (totalCores : Nat) (pkt : NetPacket) : List NetPacket :=
  (List.range totalCores).map fun coreId => { pkt with sender := cfg.mcpCoreNum, receiver := coreId }

/-! ## The broadcast to processes -/

variable (cfg : Config)

/-- `getCoreListForProcess(p)[0]`, when process `p` has a core. -/
def representative (p : Nat) : Option Nat :=
  (cfg.coreListForProcess p).head?

/-- The copy of `pkt` that iteration `p` of `broadcastPacketToProcesses` sends:
the MCP's core as sender, the representative of process `p` as receiver. -/
def broadcastCopy (pkt : NetPacket) (p : Nat) : Option NetPacket :=
  (representative cfg p).map fun r => { pkt with sender := cfg.mcpCoreNum, receiver := r }

/-- Modelled from the spec: the response a representative sends for the copy
`q`, with any data `d`. -/
def response (q : NetPacket) (d : List Byte) : NetPacket :=
  ⟨.mcpResponseType, q.receiver, q.sender, d⟩

/-- The broadcast in progress: `proc_id`, whether the MCP waits in `netRecv`
for the response to copy `procId`, the packets in flight, and the history of
the copies sent, the senders of the responses consumed, and the cores that
applied a copy, each in order. -/
structure Broadcast where
  procId : Nat
  waiting : Bool
  network : List NetPacket
  sent : List NetPacket
  acks : List Nat
  applied : List Nat
  deriving DecidableEq, Repr

/-- The broadcast on entry: nothing sent, nothing in flight. -/
def start : Broadcast := ⟨0, false, [], [], [], []⟩

/-- `broadcastPacketToProcesses` has returned: the loop test failed. -/
def returned (s : Broadcast) : Prop :=
  s.waiting = false ∧ cfg.processCount ≤ s.procId

instance (s : Broadcast) : Decidable (returned cfg s) :=
  inferInstanceAs (Decidable (_ ∧ _))

/-- The events of a broadcast: the MCP sends copy `procId` (`netSend`), a
representative takes the copy `q` off the network, applies it and answers with
data `d`, or the MCP's `netRecv(match)` returns `q`, a response addressed to
it. -/
inductive Event
  | send
  | apply (q : NetPacket) (d : List Byte)
  | recv (q : NetPacket)
  deriving DecidableEq, Repr

/-- One event of the broadcast of `pkt`, or `none` where it cannot happen. -/
def step (pkt : NetPacket) : Event → Broadcast → Option Broadcast
  | .send, s =>
    if s.waiting = false ∧ s.procId < cfg.processCount then
      (broadcastCopy cfg pkt s.procId).map fun q =>
        { s with waiting := true, network := s.network ++ [q], sent := s.sent ++ [q] }
    else none
  | .apply q d, s =>
    if q ∈ s.network ∧ q.type = .simThreadUpdateCommMap then
      some { s with network := s.network.erase q ++ [response q d], applied := s.applied ++ [q.receiver] }
    else none
  | .recv q, s =>
    if s.waiting = true ∧ q ∈ s.network ∧ q.type = .mcpResponseType ∧ q.receiver = cfg.mcpCoreNum then
      some { s with
        procId := s.procId + 1
        waiting := false
        network := s.network.erase q
        acks := s.acks ++ [q.sender] }
    else none

/-- The events `es`, in order, from `s`. -/
def runEvents (pkt : NetPacket) : List Event → Broadcast → Option Broadcast
  | [], s => some s
  | e :: es, s => (step cfg pkt e s).bind (runEvents pkt es)

/-! ## The invariant -/

/-- What is in flight in the round of process `procId`: nothing (before its
copy is sent, or once the broadcast returned), its copy, or the response to its
copy. The cores that applied a copy are the representatives of the processes
before `procId`, and of `procId` too once its response is sent. -/
inductive InFlight (pkt : NetPacket) : Broadcast → Prop
  | none {s : Broadcast} (hw : s.waiting = false) (hn : s.network = [])
      (ha : s.applied.map some = (List.range s.procId).map (representative cfg)) :
      InFlight pkt s
  | copy {s : Broadcast} {q : NetPacket} (hw : s.waiting = true)
      (hq : broadcastCopy cfg pkt s.procId = some q) (hn : s.network = [q])
      (ha : s.applied.map some = (List.range s.procId).map (representative cfg)) :
      InFlight pkt s
  | response {s : Broadcast} {q : NetPacket} {d : List Byte} (hw : s.waiting = true)
      (hq : broadcastCopy cfg pkt s.procId = some q) (hn : s.network = [response q d])
      (ha : s.applied.map some = (List.range (s.procId + 1)).map (representative cfg)) :
      InFlight pkt s

/-- The invariant of the broadcast of `pkt`. -/
structure Inv (pkt : NetPacket) (s : Broadcast) : Prop where
  procId_le : s.procId + s.waiting.toNat ≤ cfg.processCount
  sent : s.sent.map some = (List.range (s.procId + s.waiting.toNat)).map (broadcastCopy cfg pkt)
  acks : s.acks.map some = (List.range s.procId).map (representative cfg)
  inFlight : InFlight cfg pkt s

variable {cfg} {pkt : NetPacket}

theorem representative_of_broadcastCopy {p : Nat} {q : NetPacket}
    (h : broadcastCopy cfg pkt p = some q) :
    representative cfg p = some q.receiver ∧ q.sender = cfg.mcpCoreNum ∧ q.type = pkt.type := by
  obtain ⟨r, hr, rfl⟩ := Option.map_eq_some'.mp h
  exact ⟨hr, rfl, rfl⟩

theorem map_range_succ {α : Type} (f : Nat → Option α) (n : Nat) {a : α} (h : f n = some a) {l : List α}
    (hl : l.map some = (List.range n).map f) : (l ++ [a]).map some = (List.range (n + 1)).map f := by
  rw [List.map_append, hl, List.range_succ, List.map_append, List.map_singleton, List.map_singleton, h]

theorem inv_start : Inv cfg pkt start :=
  ⟨Nat.zero_le _, rfl, rfl, .none rfl rfl rfl⟩

theorem Inv.send {s t : Broadcast} (hs : Inv cfg pkt s) (h : step cfg pkt .send s = some t) :
    Inv cfg pkt t := by
  simp only [step] at h
  split at h
  · next hc =>
    obtain ⟨q, hq, rfl⟩ := Option.map_eq_some'.mp h
    have ⟨hn, ha⟩ : s.network = [] ∧
        s.applied.map some = (List.range s.procId).map (representative cfg) := by
      cases hs.inFlight with
      | none _ hn ha => exact ⟨hn, ha⟩
      | copy hw | response hw => simp [hw] at hc
    refine ⟨by simp [hc.1] at hs ⊢; omega, ?_, hs.acks, .copy rfl hq (by simp [hn]) ha⟩
    simpa [hc.1] using map_range_succ _ _ hq (by simpa [hc.1] using hs.sent)
  · cases h

theorem Inv.apply {s t : Broadcast} {q : NetPacket} {d : List Byte} (hs : Inv cfg pkt s)
    (h : step cfg pkt (.apply q d) s = some t) :
    Inv cfg pkt t := by
  simp only [step] at h
  split at h
  · next hc =>
    cases h
    cases hs.inFlight with
    | none _ hn => simp [hn] at hc
    | copy hw hq hn ha =>
      obtain rfl : q = _ := by simpa [hn] using hc.1
      obtain ⟨hr, -, -⟩ := representative_of_broadcastCopy hq
      exact ⟨hs.procId_le, hs.sent, hs.acks,
        .response (d := d) hw hq (by simp [hn]) (map_range_succ _ _ hr ha)⟩
    | response _ _ hn =>
      obtain ⟨rfl, ht⟩ : q = _ ∧ _ := by simpa only [hn, List.mem_singleton] using hc
      cases ht
  · cases h

theorem Inv.recv {s t : Broadcast} {q : NetPacket} (hs : Inv cfg pkt s)
    (hpkt : pkt.type = .simThreadUpdateCommMap) (h : step cfg pkt (.recv q) s = some t) :
    Inv cfg pkt t := by
  simp only [step] at h
  split at h
  · next hc =>
    cases h
    cases hs.inFlight with
    | none _ hn => simp [hn] at hc
    | copy _ hq hn =>
      obtain rfl : q = _ := by simpa [hn] using hc.2.1
      simp [(representative_of_broadcastCopy hq).2.2, hpkt] at hc
    | response hw hq hn ha =>
      obtain rfl : q = _ := by simpa [hn] using hc.2.1
      obtain ⟨hr, hsnd, -⟩ := representative_of_broadcastCopy hq
      have hle := hs.procId_le
      simp only [hw, Bool.toNat_true] at hle
      refine ⟨by simpa using hle, by simpa [hw] using hs.sent, map_range_succ _ _ hr hs.acks,
        .none rfl (by simp [hn]) (by simpa using ha)⟩
  · cases h

/-- Every event keeps the invariant. -/
theorem Inv.of_step {s t : Broadcast} {e : Event} (hs : Inv cfg pkt s)
    (hpkt : pkt.type = .simThreadUpdateCommMap) (h : step cfg pkt e s = some t) : Inv cfg pkt t := by
  cases e with
  | send => exact hs.send h
  | apply q d => exact hs.apply h
  | recv q => exact hs.recv hpkt h

/-- Every run keeps the invariant. -/
theorem Inv.run {es : List Event} {s t : Broadcast} (hs : Inv cfg pkt s)
    (hpkt : pkt.type = .simThreadUpdateCommMap) (h : runEvents cfg pkt es s = some t) :
    Inv cfg pkt t := by
  induction es generalizing s with
  | nil => cases h; exact hs
  | cons e es ih =>
    obtain ⟨u, hu, h⟩ := Option.bind_eq_some.mp h
    exact ih (hs.of_step hpkt hu) h

/-- A state of the invariant has at most one copy unanswered, and once returned
it has sent, consumed and seen applied one copy per process, in process order. -/
theorem Inv.acked_in_order {s : Broadcast} (hs : Inv cfg pkt s) :
    s.sent.length ≤ s.acks.length + 1 ∧
      (returned cfg s →
        s.sent.map some = (List.range cfg.processCount).map (broadcastCopy cfg pkt) ∧
        s.acks.map some = (List.range cfg.processCount).map (representative cfg) ∧
        s.applied.map some = (List.range cfg.processCount).map (representative cfg)) := by
  have hsent := congrArg List.length hs.sent
  have hacks := congrArg List.length hs.acks
  simp only [List.length_map, List.length_range] at hsent hacks
  refine ⟨by have := Bool.toNat_le s.waiting; omega, fun ⟨hw, hP⟩ => ?_⟩
  have hp : s.procId = cfg.processCount := by
    have := hs.procId_le
    simp [hw] at this
    omega
  refine ⟨by simpa [hw, hp] using hs.sent, hp ▸ hs.acks, ?_⟩
  cases hs.inFlight with
  | none _ _ ha => exact hp ▸ ha
  | copy hw' | response hw' => simp [hw] at hw'

/-! ## The broadcast returns -/

/-- Each event records one copy sent, one copy applied or one response consumed. -/
theorem step_length {e : Event} {s t : Broadcast} (h : step cfg pkt e s = some t) :
    t.sent.length + t.applied.length + t.acks.length = s.sent.length + s.applied.length + s.acks.length + 1 := by
  cases e with
  | send =>
    simp only [step] at h
    split at h
    · obtain ⟨q, -, rfl⟩ := Option.map_eq_some'.mp h
      simp only [List.length_append, List.length_singleton]
      omega
    · cases h
  | apply q d | recv q =>
    simp only [step] at h
    split at h
    · cases h
      simp only [List.length_append, List.length_singleton]
      omega
    · cases h

theorem runEvents_length {es : List Event} {s t : Broadcast} (h : runEvents cfg pkt es s = some t) :
    t.sent.length + t.applied.length + t.acks.length =
      s.sent.length + s.applied.length + s.acks.length + es.length := by
  induction es generalizing s with
  | nil => cases h; rfl
  | cons e es ih =>
    obtain ⟨u, hu, h⟩ := Option.bind_eq_some.mp h
    rw [ih h, step_length hu, List.length_cons]
    omega

/-- A state of the invariant has recorded at most three events per process. -/
theorem Inv.length_le {s : Broadcast} (hs : Inv cfg pkt s) :
    s.sent.length + s.applied.length + s.acks.length ≤ 3 * cfg.processCount := by
  have hsent := congrArg List.length hs.sent
  have hacks := congrArg List.length hs.acks
  have hle := hs.procId_le
  simp only [List.length_map, List.length_range] at hsent hacks
  have := Bool.toNat_le s.waiting
  cases hs.inFlight with
  | none _ _ ha | copy _ _ _ ha =>
    have happ := congrArg List.length ha
    simp only [List.length_map, List.length_range] at happ
    omega
  | response hw _ _ ha =>
    have happ := congrArg List.length ha
    simp only [List.length_map, List.length_range, hw, Bool.toNat_true] at happ hle
    omega

/-- A run of the broadcast has at most three events per process. -/
theorem length_le_of_runEvents_start (hpkt : pkt.type = .simThreadUpdateCommMap) {es : List Event}
    {s : Broadcast} (hs : runEvents cfg pkt es start = some s) : es.length ≤ 3 * cfg.processCount := by
  have hlen := runEvents_length hs
  have := (inv_start.run hpkt hs).length_le
  simp only [start, List.length_nil] at hlen
  omega

/-- From a state of the invariant that has not returned, some event can happen,
when every process has a core. -/
theorem Inv.can_step (hrep : ∀ p < cfg.processCount, cfg.coreListForProcess p ≠ [])
    (hpkt : pkt.type = .simThreadUpdateCommMap) {s : Broadcast} (hs : Inv cfg pkt s)
    (hret : ¬returned cfg s) : ∃ e t, step cfg pkt e s = some t := by
  cases hs.inFlight with
  | none hw =>
    have hlt : s.procId < cfg.processCount := by simpa [returned, hw] using hret
    obtain ⟨r, rs, hrs⟩ := List.exists_cons_of_ne_nil (hrep _ hlt)
    exact ⟨.send, _, by simp [step, hw, hlt, broadcastCopy, representative, hrs]; rfl⟩
  | @copy q _ hq hn =>
    obtain ⟨-, -, hty⟩ := representative_of_broadcastCopy hq
    exact ⟨.apply q [], _, by simp [step, hn, hty, hpkt]; rfl⟩
  | @response q d hw hq hn =>
    obtain ⟨-, hsnd, -⟩ := representative_of_broadcastCopy hq
    exact ⟨.recv (response q d), _, by simp [step, hw, hn, response, hsnd]; rfl⟩

/-- When every process has a core, `broadcastPacketToProcesses` returns under
every order of events: a run has at most three events per process, and a run
that has not returned can always take one more. -/
theorem run_can_return (hrep : ∀ p < cfg.processCount, cfg.coreListForProcess p ≠ [])
    (hpkt : pkt.type = .simThreadUpdateCommMap) {es : List Event} {s : Broadcast}
    (hs : runEvents cfg pkt es start = some s) :
    es.length ≤ 3 * cfg.processCount ∧ (¬returned cfg s → ∃ e t, step cfg pkt e s = some t) := by
  exact ⟨length_le_of_runEvents_start hpkt hs, (inv_start.run hpkt hs).can_step hrep hpkt⟩

/-- Two processes, after the first copy is sent: six events at most, and the
first core can apply the copy. -/
theorem run_can_return_first_copy_sent :
    [Event.send].length ≤ 3 * 2 ∧
      (¬returned ⟨true, 9, 2, fun p => [2 * p, 2 * p + 1], 4⟩
          ⟨0, true, [⟨.simThreadUpdateCommMap, 9, 0, []⟩], [⟨.simThreadUpdateCommMap, 9, 0, []⟩], [], []⟩ →
        ∃ e t, step ⟨true, 9, 2, fun p => [2 * p, 2 * p + 1], 4⟩ ⟨.simThreadUpdateCommMap, 3, 9, []⟩ e
          ⟨0, true, [⟨.simThreadUpdateCommMap, 9, 0, []⟩], [⟨.simThreadUpdateCommMap, 9, 0, []⟩], [], []⟩ =
            some t) :=
  @run_can_return ⟨true, 9, 2, fun p => [2 * p, 2 * p + 1], 4⟩ ⟨.simThreadUpdateCommMap, 3, 9, []⟩
    (by decide) rfl [.send]
    ⟨0, true, [⟨.simThreadUpdateCommMap, 9, 0, []⟩], [⟨.simThreadUpdateCommMap, 9, 0, []⟩], [], []⟩ (by decide)

/-! ## `MCP::run` on BROADCAST_COMM_MAP_UPDATE -/

/-- `MCP::run` hands a BROADCAST_COMM_MAP_UPDATE packet to
`broadcastPacketToProcesses` as SIM_THREAD_UPDATE_COMM_MAP. When every process
has a core, every run of that broadcast, in any order of events, has at most
three events per process and at most one copy unanswered, and stops only once
returned; a returned broadcast has sent the copy for process `p` to
`getCoreListForProcess(p)[0]` from the MCP's core, consumed the response of
that core, and seen it apply the update, for `p = 0, …, P - 1` in this order. -/
theorem run_broadcastCommMapUpdate (hrep : ∀ p < cfg.processCount, cfg.coreListForProcess p ≠ [])
    {tags : Tags McpMessage} {recvPkt : NetPacket}
    (htag : readBits 32 recvPkt.data 0 = some (tags.value .broadcastCommMapUpdate))
    {es : List Event} {s : Broadcast}
    (hs : runEvents cfg { recvPkt with type := .simThreadUpdateCommMap } es start = some s) :
    run tags recvPkt = .ok (.broadcastPacketToProcesses { recvPkt with type := .simThreadUpdateCommMap }) ∧
      es.length ≤ 3 * cfg.processCount ∧
      ((∀ e, step cfg { recvPkt with type := .simThreadUpdateCommMap } e s = none) → returned cfg s) ∧
      s.sent.length ≤ s.acks.length + 1 ∧
      (returned cfg s →
        s.sent.map some = (List.range cfg.processCount).map
          (broadcastCopy cfg { recvPkt with type := .simThreadUpdateCommMap }) ∧
        s.acks.map some = (List.range cfg.processCount).map (representative cfg) ∧
        s.applied.map some = (List.range cfg.processCount).map (representative cfg)) := by
  have hinv := inv_start.run rfl hs
  refine ⟨run_of_tag htag, length_le_of_runEvents_start rfl hs, fun hstuck => ?_, hinv.acked_in_order⟩
  by_contra hret
  obtain ⟨e, t, he⟩ := hinv.can_step hrep rfl hret
  simp [hstuck e] at he

/-- The broadcast of `MCP::run` to two processes of two cores each, the MCP
on core 9: it returns after six events, once both first cores, 0 and 2, have
applied the update and answered. -/
theorem run_broadcastCommMapUpdate_two_processes :
    let cfg : Config := ⟨true, 9, 2, fun p => [2 * p, 2 * p + 1], 4⟩
    let pkt : NetPacket := ⟨.simThreadUpdateCommMap, 3, 9, leBytes 4 12⟩
    let s : Broadcast := ⟨2, false, [],
      [⟨.simThreadUpdateCommMap, 9, 0, leBytes 4 12⟩, ⟨.simThreadUpdateCommMap, 9, 2, leBytes 4 12⟩],
      [0, 2], [0, 2]⟩
    run McpMessage.tagsInOrder ⟨.mcpRequestType, 3, 9, leBytes 4 12⟩ = .ok (.broadcastPacketToProcesses pkt) ∧
      6 ≤ 3 * cfg.processCount ∧
      ((∀ e, step cfg pkt e s = none) → returned cfg s) ∧
      s.sent.length ≤ s.acks.length + 1 ∧
      (returned cfg s →
        s.sent.map some = (List.range cfg.processCount).map (broadcastCopy cfg pkt) ∧
        s.acks.map some = (List.range cfg.processCount).map (representative cfg) ∧
        s.applied.map some = (List.range cfg.processCount).map (representative cfg)) :=
  @run_broadcastCommMapUpdate ⟨true, 9, 2, fun p => [2 * p, 2 * p + 1], 4⟩ (by decide)
    McpMessage.tagsInOrder ⟨.mcpRequestType, 3, 9, leBytes 4 12⟩ rfl
    [.send, .apply ⟨.simThreadUpdateCommMap, 9, 0, leBytes 4 12⟩ [], .recv ⟨.mcpResponseType, 0, 9, []⟩,
      .send, .apply ⟨.simThreadUpdateCommMap, 9, 2, leBytes 4 12⟩ [], .recv ⟨.mcpResponseType, 2, 9, []⟩]
    _ (by decide)

end Graphite.MCP
