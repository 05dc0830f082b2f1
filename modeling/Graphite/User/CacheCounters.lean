import Graphite.System.Mcp

/-!
# The cache-counter calls and the MCP

`CarbonResetCacheCounters` and `CarbonDisableCacheCounters` send the MCP a
4-byte MCP_SYSTEM_TYPE request holding their message, then wait in
`netRecv(getMCPCoreNum(), MCP_RESPONSE_TYPE)` for a 4-byte reply. `MCP::finish`
sends the MCP a QUIT and yields until `m_finished`. The MCP calls `MCP::run` on
one request at a time until QUIT sets `m_finished`.

`System` is the threads making these calls, the packets in flight and the MCP;
`step` is one event of one party and `runSys` any interleaving of events. A
failed assertion ends the process: no event follows it.

Main results:
* `run_cacheCountersRequest`: for every numbering of the messages, `MCP::run`
  fails its "Unhandled MCP message type" assertion on the request of either
  call, for its `switch` has no case for them.
* `runSys_cacheCounters_unhandled`: in every interleaving no MCP_RESPONSE_TYPE
  packet is sent and no cache-counter call returns; every cache-counter request
  the MCP took failed the assertion, and the MCP fails it on one still in flight.
-/

namespace Graphite.CacheCounters

open MCP

/-! ## The requests -/

section Requests

variable (cfg : Config) (tags : Tags McpMessage)

/-- The request of a cache-counter call on core `core`: `UInt32 msg`, sent to
the MCP's core as MCP_SYSTEM_TYPE with `sizeof(msg)` bytes. -/
def cacheCountersRequest (msg : McpMessage) (core : Nat) : NetPacket :=
  ⟨.mcpSystemType, core, cfg.mcpCoreNum, leBytes 4 (tags.value msg).toNat⟩

/-- The request `CarbonResetCacheCounters` sends. -/
def carbonResetCacheCounters (core : Nat) : NetPacket :=
  cacheCountersRequest cfg tags .resetCacheCounters core

/-- The request `CarbonDisableCacheCounters` sends. -/
def carbonDisableCacheCounters (core : Nat) : NetPacket :=
  cacheCountersRequest cfg tags .disableCacheCounters core

/-- `MCP::run` has no case for either cache-counter message: it fails its
`LOG_ASSERT_ERROR` in the `default` case. -/
theorem run_cacheCountersRequest (msg : McpMessage)
    (hmsg : msg = .resetCacheCounters ∨ msg = .disableCacheCounters) (core : Nat) :
    MCP.run tags (cacheCountersRequest cfg tags msg core) =
      .error "Unhandled MCP message type: %i from %i" := by
  rw [run_of_tag (readBits_leBytes [] [] rfl _)]
  rcases hmsg with rfl | rfl <;> rfl

/-- The calls that send the MCP a request. -/
inductive ClientCall
  | carbonResetCacheCounters
  | carbonDisableCacheCounters
  | mcpFinish
  deriving DecidableEq, Repr

/-- The calls that wait for the MCP's reply. -/
def ClientCall.awaitsReply : ClientCall → Bool
  | .carbonResetCacheCounters | .carbonDisableCacheCounters => true
  | .mcpFinish => false

/-- The request the call `c` sends from a thread on core `core`. -/
def request (core : Nat) : ClientCall → NetPacket
  | .carbonResetCacheCounters => carbonResetCacheCounters cfg tags core
  | .carbonDisableCacheCounters => carbonDisableCacheCounters cfg tags core
  | .mcpFinish => MCP.finish cfg tags

@[simp] theorem request_type (core : Nat) (c : ClientCall) :
    (request cfg tags core c).type = .mcpSystemType := by
  cases c <;> rfl

@[simp] theorem request_receiver (core : Nat) (c : ClientCall) :
    (request cfg tags core c).receiver = cfg.mcpCoreNum := by
  cases c <;> rfl

/-- What `MCP::run` does with each request. -/
theorem run_request (core : Nat) (c : ClientCall) :
    MCP.run tags (request cfg tags core c) =
      if c.awaitsReply then .error "Unhandled MCP message type: %i from %i" else .ok .quit := by
  cases c with
  | carbonResetCacheCounters => exact run_cacheCountersRequest cfg tags _ (.inl rfl) core
  | carbonDisableCacheCounters => exact run_cacheCountersRequest cfg tags _ (.inr rfl) core
  | mcpFinish => exact run_finish cfg tags

/-- `q` is the request of a cache-counter call. -/
def IsCacheRequest (q : NetPacket) : Prop :=
  ∃ core c, c.awaitsReply = true ∧ q = request cfg tags core c

theorem run_of_isCacheRequest {q : NetPacket} (hq : IsCacheRequest cfg tags q) :
    MCP.run tags q = .error "Unhandled MCP message type: %i from %i" := by
  obtain ⟨core, c, hc, rfl⟩ := hq
  simp only [run_request, hc, if_true]

end Requests

/-! ## The threads, the network and the MCP -/

/-- The threads making calls: the core each runs on and its calls, in order. -/
structure Clients (n : Nat) where
  core : Fin n → Nat
  calls : Fin n → List ClientCall

/-- The threads, the packets in flight and the MCP: the calls each thread has
started, the call it waits in once its request is sent, the packets in flight,
the MCP's `m_finished`, the failed assertion that ended the process, and the
history of the requests `MCP::run` took and of the calls that returned, with
their threads, in order. -/
structure System (n : Nat) where
  started : Fin n → Nat
  waiting : Fin n → Option ClientCall
  network : List NetPacket
  finished : Bool
  failed : Option String
  taken : List NetPacket
  returned : List (Fin n × ClientCall)

/-- Nothing sent, nothing started. -/
def start (n : Nat) : System n :=
  ⟨fun _ => 0, fun _ => none, [], false, none, [], []⟩

/-- An event of one party: thread `i` starts its next call and sends its
request; the `netRecv(getMCPCoreNum(), MCP_RESPONSE_TYPE)` of thread `i`'s
cache-counter call returns `q`; the `while (!finished()) sched_yield()` of
thread `i`'s `MCP::finish` ends; or `MCP::run` runs on the request `q` its
`netRecv` matches. -/
inductive Event (n : Nat)
  | call (i : Fin n)
  | recv (i : Fin n) (q : NetPacket)
  | finishReturns (i : Fin n)
  | mcpRun (q : NetPacket)

section Run

variable (cfg : Config) (tags : Tags McpMessage) {n : Nat} (cl : Clients n)

/-- One event, or `none` if it cannot happen. -/
def step (e : Event n) (s : System n) : Option (System n) :=
  if s.failed.isSome then none else
  match e with
  | .call i =>
    match s.waiting i, (cl.calls i)[s.started i]? with
    | none, some c => some { s with
        started := Function.update s.started i (s.started i + 1)
        waiting := Function.update s.waiting i (some c)
        network := s.network ++ [request cfg tags (cl.core i) c] }
    | _, _ => none
  | .recv i q =>
    match s.waiting i with
    | some c =>
      if c.awaitsReply ∧ q ∈ s.network ∧ q.type = .mcpResponseType ∧
          q.sender = cfg.mcpCoreNum ∧ q.receiver = cl.core i then
        some { s with
          waiting := Function.update s.waiting i none
          network := s.network.erase q
          returned := s.returned ++ [(i, c)]
          -- `assert(recv_pkt.length == sizeof(UInt32))`
          failed := if q.data.length = 4 then none else some "recv_pkt.length == sizeof(UInt32)" }
      else none
    | none => none
  | .finishReturns i =>
    if s.waiting i = some .mcpFinish ∧ s.finished then
      some { s with
        waiting := Function.update s.waiting i none
        returned := s.returned ++ [(i, .mcpFinish)] }
    else none
  | .mcpRun q =>
    if s.finished = false ∧ q ∈ s.network ∧ q.receiver = cfg.mcpCoreNum ∧
        (q.type = .mcpRequestType ∨ q.type = .mcpSystemType) then
      match MCP.run tags q with
      | .error msg => some { s with
          network := s.network.erase q
          taken := s.taken ++ [q]
          failed := some msg }
      | .ok .quit => some { s with
          network := s.network.erase q
          taken := s.taken ++ [q]
          finished := true }
      | .ok _ => some { s with
          network := s.network.erase q
          taken := s.taken ++ [q] }
    else none

/-- The events of `sched` in order; one that cannot happen is skipped. -/
def runSys : List (Event n) → System n → System n
  | [], s => s
  | e :: es, s => runSys es ((step cfg tags cl e s).getD s)

/-! ## What every run keeps -/

/-- Every packet in flight is a request, no cache-counter call has returned, and
every cache-counter request the MCP took failed the assertion. -/
structure Inv (s : System n) : Prop where
  network : ∀ q ∈ s.network, ∃ core c, q = request cfg tags core c
  returned : ∀ r ∈ s.returned, r.2 = .mcpFinish
  taken : ∀ q ∈ s.taken, IsCacheRequest cfg tags q →
    s.failed = some "Unhandled MCP message type: %i from %i"

/-- No MCP_RESPONSE_TYPE packet is in flight and no cache-counter call has
returned; every cache-counter request the MCP took failed the assertion, and
the MCP's step on one in flight fails it. -/
structure Unhandled (s : System n) : Prop where
  no_response : ∀ q ∈ s.network, q.type ≠ .mcpResponseType
  cacheCalls_never_return : ∀ r ∈ s.returned, r.2 = .mcpFinish
  taken_failed : ∀ q ∈ s.taken, IsCacheRequest cfg tags q →
    s.failed = some "Unhandled MCP message type: %i from %i"
  next_fails : ∀ q ∈ s.network, IsCacheRequest cfg tags q → s.failed = none → s.finished = false →
    ∃ t, step cfg tags cl (.mcpRun q) s = some t ∧
      t.failed = some "Unhandled MCP message type: %i from %i"

variable {cfg tags cl}

theorem inv_start : Inv cfg tags (start n) :=
  ⟨nofun, nofun, nofun⟩

variable {s t : System n}

theorem Inv.call (h : Inv cfg tags s) {i : Fin n} (hst : step cfg tags cl (.call i) s = some t) :
    Inv cfg tags t := by
  simp only [step] at hst
  split at hst
  · cases hst
  split at hst
  · cases hst
    refine ⟨fun q hq => ?_, h.returned, h.taken⟩
    rcases List.mem_append.mp hq with hq | hq
    · exact h.network q hq
    · exact ⟨_, _, List.mem_singleton.mp hq⟩
  · cases hst

/-- No reply is ever in flight, so no `netRecv` of a cache-counter call returns. -/
theorem Inv.step_recv (h : Inv cfg tags s) (i : Fin n) (q : NetPacket) :
    step cfg tags cl (.recv i q) s = none := by
  simp only [step]
  split
  · rfl
  split
  · rw [if_neg]
    rintro ⟨-, hq, htype, -⟩
    obtain ⟨core, c, rfl⟩ := h.network q hq
    simp at htype
  · rfl

theorem Inv.finishReturns (h : Inv cfg tags s) {i : Fin n}
    (hst : step cfg tags cl (.finishReturns i) s = some t) : Inv cfg tags t := by
  simp only [step] at hst
  split at hst
  · cases hst
  split at hst
  · cases hst
    refine ⟨h.network, fun r hr => ?_, h.taken⟩
    rcases List.mem_append.mp hr with hr | hr
    · exact h.returned r hr
    · rw [List.mem_singleton.mp hr]
  · cases hst

theorem Inv.mcpRun (h : Inv cfg tags s) {q : NetPacket}
    (hst : step cfg tags cl (.mcpRun q) s = some t) : Inv cfg tags t := by
  simp only [step] at hst
  split at hst
  · cases hst
  split at hst
  · rename_i hrun
    obtain ⟨core, c, rfl⟩ := h.network _ hrun.2.1
    have hnet : ∀ p ∈ s.network.erase (request cfg tags core c), ∃ core c, p = request cfg tags core c :=
      fun p hp => h.network p (List.mem_of_mem_erase hp)
    rw [run_request] at hst
    cases hc : c.awaitsReply
    -- the QUIT of `MCP::finish`
    · simp only [hc] at hst
      cases hst
      refine ⟨hnet, h.returned, fun p hp hcache => ?_⟩
      rcases List.mem_append.mp hp with hp | hp
      · exact h.taken p hp hcache
      · have hrun := run_of_isCacheRequest cfg tags hcache
        rw [List.mem_singleton.mp hp, run_request, hc, if_neg Bool.false_ne_true] at hrun
        cases hrun
    -- a cache-counter request: the assertion fails
    · simp only [hc, if_true] at hst
      cases hst
      exact ⟨hnet, h.returned, fun _ _ _ => rfl⟩
  · cases hst

theorem Inv.of_step (h : Inv cfg tags s) {e : Event n} (hst : step cfg tags cl e s = some t) :
    Inv cfg tags t := by
  cases e with
  | call i => exact h.call hst
  | recv i q => rw [h.step_recv] at hst; cases hst
  | finishReturns i => exact h.finishReturns hst
  | mcpRun q => exact h.mcpRun hst

theorem Inv.runSys (h : Inv cfg tags s) (sched : List (Event n)) :
    Inv cfg tags (runSys cfg tags cl sched s) := by
  induction sched generalizing s with
  | nil => exact h
  | cons e es ih =>
    apply ih
    cases hst : step cfg tags cl e s with
    | none => exact h
    | some t => exact h.of_step hst

/-- While the MCP runs, its step on a cache-counter request in flight ends the
process in the `default` case of `MCP::run`. -/
theorem step_mcpRun_cacheRequest {q : NetPacket} (hq : q ∈ s.network)
    (hcache : IsCacheRequest cfg tags q) (hf : s.failed = none) (hfin : s.finished = false) :
    step cfg tags cl (.mcpRun q) s = some { s with
      network := s.network.erase q
      taken := s.taken ++ [q]
      failed := some "Unhandled MCP message type: %i from %i" } := by
  obtain ⟨core, c, -, hqc⟩ := id hcache
  have hmatch : q.receiver = cfg.mcpCoreNum ∧ q.type = .mcpSystemType := by simp [hqc]
  simp only [step, hf, Option.isSome_none, Bool.false_eq_true, if_false]
  rw [if_pos ⟨hfin, hq, hmatch.1, .inr hmatch.2⟩, run_of_isCacheRequest cfg tags hcache]

theorem Inv.unhandled (h : Inv cfg tags s) : Unhandled cfg tags cl s where
  no_response q hq := by
    obtain ⟨core, c, rfl⟩ := h.network q hq
    simp
  cacheCalls_never_return := h.returned
  taken_failed := h.taken
  next_fails _ hq hcache hf hfin := ⟨_, step_mcpRun_cacheRequest hq hcache hf hfin, rfl⟩

/-- Every interleaving of the calls with the MCP's loop comes to `Unhandled`:
the MCP never answers a cache-counter call, and fails its assertion on each one
it takes. -/
theorem runSys_cacheCounters_unhandled (sched : List (Event n)) :
    Unhandled cfg tags cl (runSys cfg tags cl sched (start n)) :=
  (inv_start.runSys sched).unhandled

/-- One thread on core 0 calls `CarbonResetCacheCounters`; the MCP takes its
request and fails. -/
example :
    (runSys ⟨true, 9, 2, fun p => [2 * p, 2 * p + 1], 4⟩ McpMessage.tagsInOrder
      ⟨fun _ => 0, fun _ => [.carbonResetCacheCounters]⟩
      [.call 0, .mcpRun (carbonResetCacheCounters ⟨true, 9, 2, fun p => [2 * p, 2 * p + 1], 4⟩
        McpMessage.tagsInOrder 0)] (start 1)).failed =
      some "Unhandled MCP message type: %i from %i" := by
  decide

end Run

end Graphite.CacheCounters
