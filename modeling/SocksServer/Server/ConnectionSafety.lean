import SocksServer.Infra.Log
import SocksServer.Server.ConnectionSpec

/-!
# The order of things in one connection

Nothing is connected before authentication and a complete request, nothing is relayed before
the target is connected and the success reply is out, and the client never sees anything but
the answers of the protocol. This holds whatever the client sends and whenever a read or
write fails, a timer fires or the server shuts down.

* `Safe`, `ReportRight` — what is claimed of a state
* `ConnAt.safe`, `ConnEnds.safe` — every state and every end of a connection is safe
* `ConnAt.reportRight`, `ConnEnds.reportRight` — where it waits or has ended, the report is right
* `connection_order` — the same for every run
-/

namespace SocksServer

open Infra

/-! ## What is claimed of a state -/

/-- What must have happened before an entry of the log. -/
def EntrySafe (before : List ConnLog) : ConnLog → Prop
  | .connectToTarget target consumed =>
    (∃ username password user, .verified username password (some user) ∈ before) ∧
      RequestRead consumed target
  | .relayStarted written =>
    (∃ addr, .connected addr ∈ before) ∧ written = [0x05, 0x02, 0x01, 0x00] ++ replyBytes 0x00
  | _ => True

def LogSafe (log : List ConnLog) : Prop := Each EntrySafe log

/-- The answers a client can see, or a part of one from its start. -/
def OutputSafe (connected : Prop) (written : Bytes) : Prop :=
  written <+: [0x05, 0xFF] ∨ written <+: [0x05, 0x02, 0x01, 0x01] ∨
    ∃ c, (c = 0x00 → connected) ∧ written <+: [0x05, 0x02, 0x01, 0x00] ++ replyBytes c

structure Safe (w : ConnWorld) : Prop where
  log : LogSafe w.log
  output : OutputSafe (∃ addr, ConnLog.connected addr ∈ w.log) w.written

structure ReportRight (w : ConnWorld) : Prop where
  user : ∀ user, w.report.user = some user ↔
    ∃ username password, ConnLog.verified username password (some user) ∈ w.log
  targetAddr : ∀ addr, w.report.targetAddr = some addr ↔ ConnLog.connected addr ∈ w.log

/-! ## States and ends -/

section States

variable {peer : SocketAddr} {settled : Bool} {w : ConnWorld} {reason : CloseReason}
variable {consumed written : Bytes}

/-- Entries that nothing has to come before. -/
theorem LogSafe.concat {log : List ConnLog} {entry : ConnLog} (h : LogSafe log)
    (hentry : EntrySafe log entry) : LogSafe (log ++ [entry]) := Each.concat h hentry

theorem logSafe_verified (username password : Bytes) (result : Option String) :
    LogSafe [.verified username password result] := Each.nil.concat trivial

theorem logSafe_counted (username password : Bytes) :
    LogSafe [.verified username password none, .authFailure] :=
  (logSafe_verified username password none).concat (show EntrySafe _ .authFailure from trivial)

theorem logSafe_connecting {username password : Bytes} {user : String} {target : TargetAddr}
    (h : RequestRead consumed target) :
    LogSafe [.verified username password (some user), .connectToTarget target consumed] :=
  (logSafe_verified username password (some user)).concat
    ⟨⟨username, password, user, List.mem_cons_self⟩, h⟩

theorem logSafe_connected {username password : Bytes} {user : String} {target : TargetAddr}
    (addr : SocketAddr) (h : RequestRead consumed target) :
    LogSafe [.verified username password (some user), .connectToTarget target consumed,
      .connected addr] :=
  (logSafe_connecting h).concat (show EntrySafe _ (.connected addr) from trivial)

theorem logSafe_relaying {username password : Bytes} {user : String} {target : TargetAddr}
    (addr : SocketAddr) (h : RequestRead consumed target) :
    LogSafe [.verified username password (some user), .connectToTarget target consumed,
      .connected addr, .relayStarted ([0x05, 0x02, 0x01, 0x00] ++ replyBytes 0x00)] :=
  (logSafe_connected addr h).concat ⟨⟨addr, by simp⟩, rfl⟩

/-- What an unauthenticated client has seen is no reply. -/
theorem outputSafe_unknown {connected : Prop}
    (h : written <+: [0x05, 0x02] ∨ written <+: [0x05, 0xFF]) : OutputSafe connected written := by
  rcases h with h | h
  · exact .inr (.inl (h.trans ⟨[0x01, 0x01], rfl⟩))
  · exact .inl h

/-- A reply that does not say success. -/
theorem outputSafe_reply {connected : Prop} {c : UInt8} (hc : c ≠ 0x00)
    (h : written <+: [0x05, 0x02, 0x01, 0x00] ++ replyBytes c) : OutputSafe connected written :=
  .inr (.inr ⟨c, fun h0 => absurd h0 hc, h⟩)

/-- **Every state is safe.** -/
theorem ConnAt.safe (h : ConnAt peer settled w) : Safe w := by
  have hselected : ∀ {connected : Prop}, OutputSafe connected [0x05, 0x02] :=
    outputSafe_unknown (.inl List.prefix_rfl)
  have hsucceeded : ∀ {connected : Prop}, OutputSafe connected [0x05, 0x02, 0x01, 0x00] :=
    outputSafe_reply (c := 0x01) (by decide) ⟨replyBytes 0x01, rfl⟩
  cases h with
  | unknown _ hwritten => exact ⟨Each.nil, outputSafe_unknown hwritten⟩
  | failed => exact ⟨logSafe_verified _ _ _, hselected⟩
  | counted => exact ⟨logSafe_counted _ _, hselected⟩
  | refused _ hwritten =>
    exact ⟨(logSafe_counted _ _).concat (show EntrySafe _ (.failureRecorded peer.ip) from trivial),
      .inr (.inl hwritten)⟩
  | verified => exact ⟨logSafe_verified _ _ _, hselected⟩
  | known _ hc hwritten => exact ⟨logSafe_verified _ _ _, outputSafe_reply hc hwritten⟩
  | requested hread => exact ⟨logSafe_verified _ _ _, hsucceeded⟩
  | connecting _ hread hc hwritten =>
    exact ⟨logSafe_connecting hread, outputSafe_reply hc hwritten⟩
  | connected addr hread => exact ⟨logSafe_connected addr hread, hsucceeded⟩
  | serving _ addr hread hwritten =>
    exact ⟨logSafe_connected addr hread, .inr (.inr ⟨0, fun _ => ⟨addr, by simp⟩, hwritten⟩)⟩
  | relaying addr hread =>
    exact ⟨logSafe_relaying addr hread, .inr (.inr ⟨0, fun _ => ⟨addr, by simp⟩, List.prefix_rfl⟩)⟩

/-- **Where a connection waits, the report is right.** -/
theorem ConnAt.reportRight (h : ConnAt peer true w) : ReportRight w := by
  cases h with
  | unknown => exact ⟨by simp [ConnectionReport.empty], by simp [ConnectionReport.empty]⟩
  | refused => exact ⟨by simp [ConnectionReport.empty], by simp [ConnectionReport.empty]⟩
  | known => exact ⟨by simp [eq_comm], by simp⟩
  | connecting => exact ⟨by simp [eq_comm], by simp⟩
  | serving => exact ⟨by simp [eq_comm], by simp [eq_comm]⟩
  | relaying => exact ⟨by simp [eq_comm], by simp [eq_comm]⟩

theorem ConnEnds.safe (h : ConnEnds peer reason w) : Safe w := by
  cases h with
  | cut hat => exact hat.safe
  | relayed addr result hread =>
    exact ⟨(logSafe_relaying addr hread).concat (show EntrySafe _ (.relayEnded result) from trivial),
      .inr (.inr ⟨0, fun _ => ⟨addr, by simp⟩, List.prefix_rfl⟩)⟩

theorem ConnEnds.reportRight (h : ConnEnds peer reason w) : ReportRight w := by
  cases h with
  | cut hat => exact hat.reportRight
  | relayed addr result hread => exact ⟨by simp [eq_comm], by simp [eq_comm]⟩

end States

/--
**The order of things in a connection.** In every state of every run, whatever the client
sends and whatever fails: the log shows that nothing was connected or relayed too early, and
the client has seen a part of one of the answers of the protocol. At every await point and
at the end the report names the verified user and the connected address.
-/
theorem connection_order (users : UserStore) (policy : DestinationPolicy) (peer : SocketAddr)
    (events : List (Task.Event ConnSig)) (task : Task ConnSig CloseReason) (w : ConnWorld)
    (h : run (connWorld users).step (serveConnection policy peer, .new) events =
      some (task, w)) :
    Safe w ∧ (task.settled = true → ReportRight w) := by
  have hwp := Task.wp_sound (wp_serveConnection users policy peer) h
  rcases Task.wp_invariant hwp with ⟨reason, -, hends⟩ | hat
  · exact ⟨hends.safe, fun _ => hends.reportRight⟩
  · refine ⟨hat.safe, ?_⟩
    intro hsettled
    rw [hsettled] at hat
    exact hat.reportRight

/-- A client that gets through to the relay, with its reads and writes cut into pieces. -/
theorem connection_order_to_relay :
    let users := UserStore.oneUser
    let addr : SocketAddr := .v4 (.new 8 8 8 8) 53
    let events : List (Task.Event ConnSig) :=
      [.received [5], .received [1], .received [2], .sent [5, 2], .received [1], .received [1],
        .received [97], .received [1], .received [98], .returned (.verify [97] [98]) (some "a"),
        .returned (.setUser "a") (), .sent [1], .sent [0], .received [5, 1], .received [0, 1],
        .received [8, 8, 8, 8], .received [0, 53], .returned (.setTarget (.ip addr)) (),
        .returned (.connectToTarget (.ip addr)) (), .answered (.tcpConnect addr) (.ok ()),
        .returned (.setTargetAddr addr) (), .sent [5, 0, 0], .sent [1, 0, 0, 0, 0, 0, 0],
        .returned .relayTcp ()]
    ∃ task w, run (connWorld users).step
        (serveConnection ⟨[], false, []⟩ (.v4 (.new 203 0 113 5) 40000), .new) events =
          some (task, w) ∧
      w.report = ⟨some "a", some (.ip addr), some addr⟩ ∧ Safe w := by
  intro users addr events
  have hreport : (run (connWorld users).step
      (serveConnection ⟨[], false, []⟩ (.v4 (.new 203 0 113 5) 40000), .new) events).map
        (fun s => s.2.report) = some ⟨some "a", some (.ip addr), some addr⟩ := by
    decide +kernel
  obtain ⟨⟨task, w⟩, hrun, hw⟩ := Option.map_eq_some_iff.mp hreport
  exact ⟨task, w, hrun, hw, (connection_order users _ _ events task w hrun).1⟩

end SocksServer
