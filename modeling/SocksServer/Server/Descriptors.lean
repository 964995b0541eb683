import Mathlib.Algebra.Order.BigOperators.Group.List
import SocksServer.Server.EndToEnd

/-!
# File descriptors

`raise_file_limit` counts two descriptors for each connection and some for the rest of the
process. A connection holds the socket of its client until its task ends; the connector opens one
stream at a time and keeps the first that is connected.

* `Connection.descriptors` — what a connection holds, from where its task stands
* `ConnAt.oneUpstream` — a task is given one stream to a target at most
* `descriptors_within_limit` — the connections never hold more than was counted
-/

namespace SocksServer

open Infra

/-! ## `main.rs` -/

/-- Descriptors needed besides the two per connection. -/
def fdReserve : UInt64 := 64

/-- What `raise_file_limit` compares the soft limit with. -/
def neededDescriptors (config : ServerConfig) : UInt64 :=
  config.maxConnections.toUInt64 * 2 + fdReserve

/-! ## What a connection holds -/

def ConnLog.isConnected : ConnLog → Bool
  | .connected _ => true
  | _ => false

/-- The streams to a target that the task has been given. -/
def ConnWorld.upstreams (w : ConnWorld) : Nat := w.log.countP ConnLog.isConnected

/-- Sockets are closed with the task; a connect that fails closes its own. -/
def Connection.descriptors (c : Connection) : Nat :=
  match c.task with
  | .done _ => 0
  | .await (.tcpConnect _) _ _ => 2 + c.world.upstreams
  | _ => 1 + c.world.upstreams

def Server.descriptors (s : Server) : Nat := (s.connections.map Connection.descriptors).sum

/-! ## One stream to a target -/

/-- A target is connected once at most, and before the relay. -/
def OneUpstream (w : ConnWorld) : Prop := w.upstreams ≤ 1 ∧ (w.relays = true → w.upstreams = 1)

section Upstream

variable {peer : SocketAddr} {settled : Bool} {w : ConnWorld} {reason : CloseReason}

theorem upstreams_record (w : ConnWorld) (entry : ConnLog) :
    (w.record entry).upstreams = w.upstreams + entry.isConnected.toNat := by
  cases entry <;> simp [ConnWorld.upstreams, ConnWorld.record, ConnLog.isConnected]

/-- **A connection is given one stream to a target at most.** -/
theorem ConnAt.oneUpstream (h : ConnAt peer settled w) : OneUpstream w := by
  have hnone : ∀ w : ConnWorld, w.upstreams = 0 → w.relays = false → OneUpstream w := by
    intro w hzero hrelays
    exact ⟨by rw [hzero]; exact Nat.zero_le 1, by rw [hrelays]; rintro ⟨⟩⟩
  have hone : ∀ w : ConnWorld, w.upstreams = 1 → OneUpstream w := fun w h => ⟨h.le, fun _ => h⟩
  cases h with
  | connected addr => exact hone _ rfl
  | serving => exact hone _ rfl
  | relaying addr => exact hone _ rfl
  | _ => exact hnone _ rfl rfl

theorem ConnEnds.oneUpstream (h : ConnEnds peer reason w) : OneUpstream w := by
  cases h with
  | cut hat => exact hat.oneUpstream
  | relayed => exact ⟨le_rfl, fun _ => rfl⟩

end Upstream

/-! ## Every run -/

section Descriptors

variable {config : ServerConfig} {start : Nat} {es : List (Nat × ServerEvent)} {s : Server}
variable {c : Connection}

namespace Connection.InSpec

variable {users : UserStore}

theorem oneUpstream (h : c.InSpec users) : OneUpstream c.world := by
  rcases h.cases with ⟨reason, -, hends⟩ | hat
  · exact hends.oneUpstream
  · exact hat.oneUpstream

/-- A connect is under way only while there is no other stream. -/
theorem connecting (h : c.InSpec users) {addr : SocketAddr} {t : Nat}
    {k : Except IoError Unit ⊕ Fin t → Task ConnSig CloseReason}
    (htask : c.task = .await (.tcpConnect addr) t k) : c.world.upstreams = 0 := by
  unfold InSpec at h
  rw [htask] at h
  -- the next event may be that this connect succeeds, and then there is one stream
  have hnext := h.2.2 (.ok ()) (c.world.record (.connected addr)) rfl
  have hone : OneUpstream (c.world.record (.connected addr)) := by
    rcases Task.wp_invariant hnext with ⟨reason, -, hends⟩ | hat
    · exact hends.oneUpstream
    · exact hat.oneUpstream
  have hle := hone.1
  rw [upstreams_record, show (ConnLog.connected addr).isConnected.toNat = 1 from rfl] at hle
  omega

theorem descriptors_le (h : c.InSpec users) : c.descriptors ≤ 2 := by
  have hone := h.oneUpstream.1
  unfold Connection.descriptors
  split
  · omega
  · next addr t k htask =>
    rw [h.connecting htask]
  · omega

/-- A connection that is relaying. -/
theorem descriptors_eq (h : c.InSpec users) (hrelays : c.world.relays = true)
    (hopen : ∀ reason, c.task ≠ .done reason) : c.descriptors = 2 := by
  have hone := h.oneUpstream.2 hrelays
  unfold Connection.descriptors
  split
  · next reason htask => exact absurd htask (hopen reason)
  · next addr t k htask =>
    rw [h.connecting htask] at hone
    cases hone
  · rw [hone]

end Connection.InSpec

theorem descriptors_le_of_run (h : run Server.step (.new config start) es = some s) :
    s.descriptors ≤ 2 * s.connections.length := by
  have hsum := List.sum_le_card_nsmul (s.connections.map Connection.descriptors) 2 (by
    intro n hn
    obtain ⟨c, hc, rfl⟩ := List.mem_map.mp hn
    exact ((kept_inSpec config).of_run h c hc).descriptors_le)
  rwa [List.length_map, Nat.nsmul_eq_mul, mul_comm] at hsum

/-- The computation of `raise_file_limit` does not overflow. -/
theorem toNat_neededDescriptors (config : ServerConfig) :
    (neededDescriptors config).toNat = 2 * config.maxConnections.toNat + 64 := by
  have hlt := config.maxConnections.toNat_lt
  unfold neededDescriptors fdReserve
  rw [UInt64.toNat_add, UInt64.toNat_mul, UInt32.toNat_toUInt64]
  simp only [UInt64.toNat_ofNat]
  omega

end Descriptors

/--
**The connections stay within their descriptors.** In every reachable state of the server, with
any number of clients and in whatever order the tasks move, a connection holds two descriptors at
most and exactly two while it relays, and of what `raise_file_limit` counts as needed all of them
together leave the reserve to the rest of the process.
-/
theorem descriptors_within_limit (config : ServerConfig) (start : Nat)
    (es : List (Nat × ServerEvent)) (s : Server)
    (h : run Server.step (.new config start) es = some s) :
    (∀ c ∈ s.connections, c.descriptors ≤ 2 ∧
      (c.relay ≠ none → (∀ reason, c.task ≠ .done reason) → c.descriptors = 2)) ∧
    s.descriptors + fdReserve.toNat ≤ (neededDescriptors config).toNat := by
  refine ⟨?_, ?_⟩
  · intro c hc
    have hspec := (kept_inSpec config).of_run h c hc
    refine ⟨hspec.descriptors_le, ?_⟩
    intro hrelay hopen
    refine hspec.descriptors_eq ?_ hopen
    by_contra hnot
    exact hrelay ((kept_noRelay config).of_run h c hc (by simpa using hnot))
  · have hfree := (permitsHeld_of_run h).free
    have hle := descriptors_le_of_run h
    rw [toNat_neededDescriptors, show fdReserve.toNat = 64 from rfl]
    omega

/--
Two clients, one of them connecting: three descriptors are in use, and 68 are counted as needed.
-/
theorem descriptors_within_limit_connecting :
    ∃ s, run Server.step (.new smallConfig 0)
        ([(0, .accept (.v4 (.new 203 0 113 5) 40000) 0), (0, .tryAcquire),
          (0, .accept (.v4 (.new 203 0 113 6) 40000) 0), (0, .tryAcquire)] ++
          ([.received [5], .received [1], .received [2], .sent [5, 2], .received [1], .received [1],
            .received [97], .received [1], .received [98], .returned (.verify [97] [98]) (some "a"),
            .returned (.setUser "a") (), .sent [1, 0], .received [5, 1, 0, 1],
            .received [8, 8, 8, 8], .received [0, 53],
            .returned (.setTarget (.ip (.v4 (.new 8 8 8 8) 53))) (),
            .returned (.connectToTarget (.ip (.v4 (.new 8 8 8 8) 53))) ()].map
          fun event => (1, .connection 0 event 1))) = some s ∧
      s.descriptors = 3 ∧ s.descriptors + 64 ≤ (neededDescriptors smallConfig).toNat := by
  have hrun : (run Server.step (.new smallConfig 0)
        ([(0, .accept (.v4 (.new 203 0 113 5) 40000) 0), (0, .tryAcquire),
          (0, .accept (.v4 (.new 203 0 113 6) 40000) 0), (0, .tryAcquire)] ++
          ([.received [5], .received [1], .received [2], .sent [5, 2], .received [1], .received [1],
            .received [97], .received [1], .received [98], .returned (.verify [97] [98]) (some "a"),
            .returned (.setUser "a") (), .sent [1, 0], .received [5, 1, 0, 1],
            .received [8, 8, 8, 8], .received [0, 53],
            .returned (.setTarget (.ip (.v4 (.new 8 8 8 8) 53))) (),
            .returned (.connectToTarget (.ip (.v4 (.new 8 8 8 8) 53))) ()].map
          fun event => (1, .connection 0 event 1)))).map Server.descriptors = some 3 := by
    decide +kernel
  obtain ⟨s, hs, hthree⟩ := Option.map_eq_some_iff.mp hrun
  exact ⟨s, hs, hthree, (descriptors_within_limit smallConfig 0 _ s hs).2⟩

end SocksServer
