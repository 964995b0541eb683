import SocksServer.Server.Moves
import SocksServer.Server.Shapes

/-!
# No failed check escapes

A password check that fails is counted in `auth_failures` and told to the ban list, by two calls
after the check. Any number of connections is somewhere between these calls at any time. Since
nothing is awaited in between, neither a timeout nor `force_close` can cut them off.

* `Debt` — how much of that a connection still owes
* `ConnAt.debt_eq`, `ConnEnds.debt_eq` — where it waits and at its end it owes nothing
* `pays_of_step` — what one event does to what is owed
* `Pays.balance`, `countP_failed_of_pays` — and what is seen of that in the log
* `Connection.PaysNext` — what a connection that owes something does next
* `failures_accounted` — checks, counter and ban list agree in every reachable state, up to
  what the connections owe
-/

namespace SocksServer

open Infra

/-! ## Debts -/

/-- What a connection owes after a failed check. -/
inductive Debt where
  | nothing
  /-- Neither the counter nor the ban list knows. -/
  | both
  /-- The ban list does not know. -/
  | record
  deriving DecidableEq, Repr

/-- The next call tells what a connection owes. -/
def taskDebt : Task ConnSig CloseReason → Debt
  | .call .incrementAuthFailures _ => .both
  | .call (.recordFailure _) _ => .record
  | _ => .nothing

def Connection.debt (c : Connection) : Debt := taskDebt c.task

/-- An event of a connection from `peer`, with what is owed before and after it. -/
inductive Pays (peer : SocketAddr) : Debt → Task.Event ConnSig → Debt → Prop
  /-- A check fails. -/
  | failed (username password : Bytes) :
    Pays peer .nothing (.returned (.verify username password) none) .both
  | counted : Pays peer .both (.returned .incrementAuthFailures ()) .record
  | recorded (verdict : FailureVerdict) :
    Pays peer .record (.returned (.recordFailure peer.ip) verdict) .nothing
  /-- Anything else. -/
  | other {event : Task.Event ConnSig} :
    (∀ username password, event ≠ .returned (.verify username password) none) →
    (∀ u, event ≠ .returned .incrementAuthFailures u) →
    (∀ ip verdict, event ≠ .returned (.recordFailure ip) verdict) →
    Pays peer .nothing event .nothing

/-! ## What is owed, from what was logged -/

/-- What a connection owes by its log. -/
def ConnWorld.debt (w : ConnWorld) : Debt :=
  match w.log with
  | [.verified _ _ none] => .both
  | [.verified _ _ none, .authFailure] => .record
  | _ => .nothing

/-- An entry that only a client with a right password has. -/
def ConnLog.afterLogin : ConnLog → Prop
  | .connectToTarget _ _ => True
  | .connected _ => True
  | .relayStarted _ => True
  | .relayEnded _ => True
  | _ => False

/-- One check, and then what its result calls for. -/
def LogAt (peer : SocketAddr) : List ConnLog → Prop
  | [] => True
  | .verified _ _ none :: rest => rest <+: [.authFailure, .failureRecorded peer.ip]
  | .verified _ _ (some _) :: rest => ∀ entry ∈ rest, entry.afterLogin
  | _ => False

/-- A connection from `peer` can come here. -/
def Reached (peer : SocketAddr) (w : ConnWorld) : Prop :=
  (∃ reason, ConnEnds peer reason w) ∨ ∃ settled, ConnAt peer settled w

section Reached

variable {users : UserStore} {peer : SocketAddr} {settled : Bool} {w w' : ConnWorld}
variable {reason : CloseReason} {task task' : Task ConnSig CloseReason}

theorem ConnAt.logAt (h : ConnAt peer settled w) : LogAt peer w.log := by
  cases h <;> simp [LogAt, ConnLog.afterLogin]

theorem Reached.logAt (h : Reached peer w) : LogAt peer w.log := by
  rcases h with ⟨reason, h⟩ | ⟨settled, h⟩
  · cases h with
    | cut hat => exact hat.logAt
    | relayed => simp [LogAt, ConnLog.afterLogin]
  · exact h.logAt

/-- **Nothing is owed where a connection waits.** -/
theorem ConnAt.debt_eq (h : ConnAt peer true w) : w.debt = .nothing := by
  cases h <;> rfl

theorem ConnEnds.debt_eq (h : ConnEnds peer reason w) : w.debt = .nothing := by
  cases h with
  | cut hat => exact hat.debt_eq
  | relayed => rfl

/-- Who owes something has reported nothing. -/
theorem Reached.report_eq (h : Reached peer w) (hdebt : w.debt ≠ .nothing) :
    w.report = .empty := by
  rcases h with ⟨reason, h⟩ | ⟨settled, h⟩
  · exact absurd h.debt_eq hdebt
  · cases h with
    | failed | counted => rfl
    | _ => exact absurd rfl hdebt

theorem reached_of_wp (h : task.wp (connWorld users) (ConnAt peer) (ConnEnds peer) w) :
    Reached peer w := by
  rcases Task.wp_invariant h with ⟨reason, -, hends⟩ | hat
  · exact .inl ⟨reason, hends⟩
  · exact .inr ⟨_, hat⟩

/-- A call that only fills in the report. -/
theorem debt_of_report (hreached : Reached peer w') (hlog : w'.log = w.log)
    (hreport : w'.report ≠ .empty) : w.debt = .nothing ∧ w'.debt = .nothing := by
  have hsame : w'.debt = w.debt := by rw [ConnWorld.debt, hlog, ConnWorld.debt]
  have hnothing : w'.debt = .nothing := by
    by_contra hdebt
    exact hreport (hreached.report_eq hdebt)
  exact ⟨hsame.symm.trans hnothing, hnothing⟩

/-- An entry of a client that has logged in, or of none. -/
theorem debt_of_afterLogin {entry : ConnLog} (hreached : Reached peer w')
    (hafter : w'.log = w.log ++ [entry]) (hentry : entry.afterLogin) :
    w.debt = .nothing ∧ w'.debt = .nothing := by
  have hlog := hreached.logAt
  unfold ConnWorld.debt
  rw [hafter] at hlog ⊢
  generalize w.log = log at hlog
  match log, entry with
  | [], .connectToTarget _ _ | [], .connected _ | [], .relayStarted _ | [], .relayEnded _ =>
    exact hlog.elim
  | .verified _ _ (some _) :: _, _ => exact ⟨rfl, rfl⟩
  | .verified _ _ none :: rest, _ =>
    have hmem := hlog.subset (List.mem_append_right rest List.mem_cons_self)
    rcases List.mem_cons.mp hmem with rfl | hmem
    · exact hentry.elim
    · rw [List.mem_singleton.mp hmem] at hentry
      exact hentry.elim
  | .authFailure :: _, _ | .failureRecorded _ :: _, _ | .connectToTarget _ _ :: _, _
  | .connected _ :: _, _ | .relayStarted _ :: _, _ | .relayEnded _ :: _, _ => exact hlog.elim

/-- A check is the first thing that is logged. -/
theorem LogAt.eq_nil_of_verified {log : List ConnLog} {username password : Bytes}
    {result : Option String} (h : LogAt peer (log ++ [.verified username password result])) :
    log = [] := by
  match log with
  | [] => rfl
  | .verified _ _ (some _) :: rest =>
    exact (h _ (List.mem_append_right rest List.mem_cons_self)).elim
  | .verified _ _ none :: rest =>
    have hmem := h.subset (List.mem_append_right rest List.mem_cons_self)
    simp at hmem
  | .authFailure :: _ | .failureRecorded _ :: _ | .connectToTarget _ _ :: _ | .connected _ :: _
  | .relayStarted _ :: _ | .relayEnded _ :: _ => exact h.elim

/-- The failure is counted right after the check. -/
theorem debt_of_authFailure (h : Reached peer (w.record .authFailure)) :
    w.debt = .both ∧ (w.record .authFailure).debt = .record := by
  have hlog : LogAt peer (w.log ++ [.authFailure]) := h.logAt
  unfold ConnWorld.debt ConnWorld.record
  generalize w.log = log at hlog
  match log with
  | [] => exact hlog.elim
  | .verified _ _ (some _) :: rest =>
    exact (hlog _ (List.mem_append_right rest List.mem_cons_self)).elim
  | [.verified _ _ none] => exact ⟨rfl, rfl⟩
  | .verified _ _ none :: entry :: rest =>
    obtain ⟨-, hrest⟩ := List.cons_prefix_cons.mp hlog
    have hmem := hrest.subset (List.mem_append_right rest List.mem_cons_self)
    simp at hmem
  | .authFailure :: _ | .failureRecorded _ :: _ | .connectToTarget _ _ :: _ | .connected _ :: _
  | .relayStarted _ :: _ | .relayEnded _ :: _ => exact hlog.elim

/-- The ban list is told right after that, and of this client. -/
theorem debt_of_failureRecorded {ip : IpAddr} (h : Reached peer (w.record (.failureRecorded ip))) :
    w.debt = .record ∧ ip = peer.ip ∧ (w.record (.failureRecorded ip)).debt = .nothing := by
  have hlog : LogAt peer (w.log ++ [.failureRecorded ip]) := h.logAt
  unfold ConnWorld.debt ConnWorld.record
  generalize w.log = log at hlog
  match log with
  | [] => exact hlog.elim
  | .verified _ _ (some _) :: rest =>
    exact (hlog _ (List.mem_append_right rest List.mem_cons_self)).elim
  | [.verified _ _ none] => simp [LogAt] at hlog
  | [.verified _ _ none, entry] =>
    obtain ⟨rfl, hrest⟩ := List.cons_prefix_cons.mp hlog
    obtain ⟨hip, -⟩ := List.cons_prefix_cons.mp hrest
    exact ⟨rfl, ConnLog.failureRecorded.inj hip, rfl⟩
  | .verified _ _ none :: entry :: entry' :: rest =>
    have hlength := List.IsPrefix.length_le hlog
    simp at hlength
  | .authFailure :: _ | .failureRecorded _ :: _ | .connectToTarget _ _ :: _ | .connected _ :: _
  | .relayStarted _ :: _ | .relayEnded _ :: _ => exact hlog.elim

/-- **A call**, and what is owed before and after it. -/
theorem pays_of_call {c : ConnCall} {r : c.Res} (h : ConnWorld.call users c r w = some w')
    (hreached : Reached peer w') : Pays peer w.debt (.returned c r) w'.debt := by
  have hother : (∀ username password, c ≠ .verify username password) → c ≠ .incrementAuthFailures →
      (∀ ip, c ≠ .recordFailure ip) → w.debt = .nothing ∧ w'.debt = .nothing →
      Pays peer w.debt (.returned c r) w'.debt := by
    rintro hverify hincrement hrecord ⟨hbefore, hafter⟩
    rw [hbefore, hafter]
    refine .other ?_ ?_ ?_
    · rintro username password heq
      cases heq
      exact hverify username password rfl
    · rintro u heq
      cases heq
      exact hincrement rfl
    · rintro ip verdict heq
      cases heq
      exact hrecord ip rfl
  cases c with
  | verify username password =>
    simp only [ConnWorld.call] at h
    split at h
    · obtain rfl := Option.some.inj h
      have hempty : w.log = [] := LogAt.eq_nil_of_verified hreached.logAt
      simp only [ConnWorld.debt, ConnWorld.record, hempty, List.nil_append]
      cases r with
      | none => exact .failed username password
      | some user => exact .other (by simp) (by simp) (by simp)
    · cases h
  | incrementAuthFailures =>
    obtain rfl : w.record .authFailure = w' := Option.some.inj h
    obtain ⟨hbefore, hafter⟩ := debt_of_authFailure hreached
    rw [hbefore, hafter]
    exact .counted
  | recordFailure ip =>
    obtain rfl : w.record (.failureRecorded ip) = w' := Option.some.inj h
    obtain ⟨hbefore, rfl, hafter⟩ := debt_of_failureRecorded hreached
    rw [hbefore, hafter]
    exact .recorded r
  | connectToTarget target =>
    obtain rfl : w.record (.connectToTarget target w.consumed) = w' := Option.some.inj h
    exact hother (by simp) (by simp) (by simp) (debt_of_afterLogin hreached rfl trivial)
  | relayTcp =>
    obtain rfl : w.record (.relayStarted w.written) = w' := Option.some.inj h
    exact hother (by simp) (by simp) (by simp) (debt_of_afterLogin hreached rfl trivial)
  | setUser user | setTarget target | setTargetAddr addr =>
    obtain rfl := Option.some.inj h
    exact hother (by simp) (by simp) (by simp)
      (debt_of_report hreached rfl (by simp [ConnectionReport.empty]))

/-- Where the task stands shows what it owes. -/
theorem taskDebt_eq (h : task.wp (connWorld users) (ConnAt peer) (ConnEnds peer) w) :
    taskDebt task = w.debt := by
  cases task with
  | call c k =>
    -- the call that comes next can be answered
    obtain ⟨r, w', hcall⟩ : ∃ r w', ConnWorld.call users c r w = some w' := by
      cases c with
      | verify username password => exact ⟨users.verify username password, _, if_pos rfl⟩
      | recordFailure ip => exact ⟨.disabled, _, rfl⟩
      | _ => exact ⟨(), _, rfl⟩
    have hpays := pays_of_call hcall (reached_of_wp (h.2 r w' hcall))
    generalize w.debt = d, w'.debt = d' at hpays
    cases hpays with
    | failed | counted | recorded => rfl
    | other hverify hincrement hrecord =>
      cases c with
      | incrementAuthFailures => exact absurd rfl (hincrement r)
      | recordFailure ip => exact absurd rfl (hrecord ip r)
      | _ => rfl
  | done reason => exact (ConnEnds.debt_eq h).symm
  | _ =>
    rcases Task.wp_invariant h with ⟨reason, hdone, -⟩ | hat
    · cases hdone
    · exact hat.debt_eq.symm

/-- **One event of a connection.** -/
theorem pays_of_step {event : Task.Event ConnSig}
    (h : task.wp (connWorld users) (ConnAt peer) (ConnEnds peer) w)
    (hstep : (connWorld users).step (task, w) event = some (task', w')) :
    Pays peer (taskDebt task) event (taskDebt task') := by
  have hnext := Task.wp_step h hstep
  obtain ⟨p, hp, hmap⟩ := Option.bind_eq_some_iff.mp hstep
  obtain ⟨w₁, heffect, heq⟩ := Option.map_eq_some_iff.mp hmap
  obtain ⟨rfl, rfl⟩ := Prod.mk.inj heq
  by_cases hreturned : ∃ c r, event = .returned c r
  · obtain ⟨c, r, rfl⟩ := hreturned
    rw [taskDebt_eq h, taskDebt_eq hnext]
    exact pays_of_call heffect (reached_of_wp hnext)
  · -- the task has waited and owed nothing, and what is logged there comes after a login
    have hbefore : taskDebt task = .nothing := by
      cases task with
      | call c k =>
        cases event <;> simp only [Task.step, reduceCtorEq] at hp
        exact absurd ⟨_, _, rfl⟩ hreturned
      | _ => rfl
    have hafter : taskDebt p = .nothing := by
      rw [taskDebt_eq h] at hbefore
      rw [taskDebt_eq hnext]
      obtain ⟨entries, hlog, hrecords⟩ := records_of_effect heffect
      cases hrecords with
      | nothing =>
        rw [ConnWorld.debt, hlog, List.append_nil]
        exact hbefore
      | connected addr => exact (debt_of_afterLogin (reached_of_wp hnext) hlog trivial).2
      | relayEnded result => exact (debt_of_afterLogin (reached_of_wp hnext) hlog trivial).2
      | _ => exact absurd ⟨_, _, rfl⟩ hreturned
    rw [hbefore, hafter]
    refine .other ?_ ?_ ?_
    · rintro username password rfl
      exact hreturned ⟨_, _, rfl⟩
    · rintro u rfl
      exact hreturned ⟨_, _, rfl⟩
    · rintro ip verdict rfl
      exact hreturned ⟨_, _, rfl⟩

end Reached

/-! ## Counting -/

/-- A failed check of a client with this address. -/
def ServerLog.isFailedCheck (ip : IpAddr) : ServerLog → Bool
  | .verified context none _ => context.peer.ip = ip
  | _ => false

def ServerLog.isFailed : ServerLog → Bool
  | .verified _ none _ => true
  | _ => false

/-- A `record_failure` of this address. -/
def ServerEvent.records (ip : IpAddr) : ServerEvent → Bool
  | .connection _ (.returned (.recordFailure ip') _) _ => ip' = ip
  | _ => false

/-- A failed check of this client has not reached the ban list yet. -/
def Connection.owes (ip : IpAddr) (c : Connection) : Bool :=
  c.context.peer.ip = ip && c.debt ≠ .nothing

/-- A failed check of this connection is not in the counter yet. -/
def Connection.owesCount (c : Connection) : Bool := c.debt = .both

section Count

variable {p : Connection → Bool} {connections : List Connection} {i : Nat} {c c' : Connection}

theorem ite_eq_toNat (b : Bool) : (if b = true then 1 else 0) = b.toNat := by
  cases b <;> rfl

theorem countP_set_of (hc : connections[i]? = some c) :
    (connections.set i c').countP p + (p c).toNat = connections.countP p + (p c').toNat := by
  obtain ⟨hi, rfl⟩ := List.getElem?_eq_some_iff.mp hc
  have hpos : (p connections[i]).toNat ≤ connections.countP p := by
    cases hp : p connections[i] with
    | false => simp
    | true => exact List.countP_pos_iff.mpr ⟨_, List.getElem_mem hi, hp⟩
  rw [List.countP_set hi, ite_eq_toNat, ite_eq_toNat]
  omega

theorem countP_eraseIdx_of (hc : connections[i]? = some c) (hp : p c = false) :
    (connections.eraseIdx i).countP p = connections.countP p := by
  obtain ⟨hi, rfl⟩ := List.getElem?_eq_some_iff.mp hc
  rw [← (List.getElem_cons_eraseIdx_perm hi).countP_eq p, List.countP_cons_of_neg (by simp [hp])]

end Count

section Observed

variable {context : ConnectionContext} {event : Task.Event ConnSig} {d d' : Debt}

/-- What the others see of an event. -/
theorem observe_cases (s : Server) (context : ConnectionContext) (stamp : Nat)
    (event : Task.Event ConnSig) :
    (∃ username password result, event = .returned (.verify username password) result ∧
      s.observe context stamp event = [.verified context result s.now]) ∨
    (∃ ip verdict, event = .returned (.recordFailure ip) verdict ∧
      s.observe context stamp event = .failureRecorded ip verdict stamp ::
        if s.state.banList.triggers ip stamp then [.banTriggered ip stamp] else []) ∨
    (s.observe context stamp event = [] ∧
      (∀ username password result, event ≠ .returned (.verify username password) result) ∧
      ∀ ip verdict, event ≠ .returned (.recordFailure ip) verdict) := by
  unfold Server.observe
  split
  · exact .inl ⟨_, _, _, rfl, rfl⟩
  · exact .inr (.inl ⟨_, _, rfl, rfl⟩)
  · next hverify hrecord =>
    exact .inr (.inr ⟨rfl, fun u p r he => hverify u p r he, fun ip v he => hrecord ip v he⟩)

/-- A failed check makes a debt, and the call of `record_failure` ends it. -/
theorem Pays.balance {peer : SocketAddr} (h : Pays peer d event d') (hit : Bool) :
    (hit && (d = .nothing && d' = .both)).toNat + (hit && d ≠ .nothing).toNat =
      (hit && d = .record).toNat + (hit && d' ≠ .nothing).toNat := by
  cases h <;> cases hit <;> rfl

/-- As far as the counter is concerned, its own call ends the debt. -/
theorem Pays.balance_counter {peer : SocketAddr} (h : Pays peer d event d') :
    ((d = .nothing && d' = .both : Bool)).toNat + (decide (d = .both)).toNat =
      (decide (d = .both)).toNat + (decide (d' = .both)).toNat := by
  cases h <;> rfl

/-- A failed check is seen when it makes a debt. -/
theorem countP_failed_of_pays (hpays : Pays context.peer d event d') (s : Server) (stamp : Nat)
    {p : ServerLog → Bool} {hit : Bool}
    (hverified : ∀ result t, p (.verified context result t) = (hit && result.isNone))
    (hrecorded : ∀ ip verdict t, p (.failureRecorded ip verdict t) = false)
    (hbanned : ∀ ip t0, p (.banTriggered ip t0) = false) :
    (s.observe context stamp event).countP p = (hit && (d = .nothing && d' = .both)).toNat := by
  rcases observe_cases s context stamp event with ⟨username, password, result, rfl, hobserve⟩ |
    ⟨ip, verdict, rfl, hobserve⟩ | ⟨hobserve, hverify, hrecord⟩
  · rw [hobserve, List.countP_singleton, hverified]
    cases hpays with
    | failed => cases hit <;> rfl
    | other hnone =>
      cases result with
      | none => exact absurd rfl (hnone username password)
      | some user => cases hit <;> rfl
  · have hnone : (s.observe context stamp (.returned (.recordFailure ip) verdict)).countP p = 0 := by
      rw [hobserve]
      split <;> simp [hrecorded, hbanned]
    rw [hnone]
    cases hpays with
    | recorded => cases hit <;> rfl
    | other _ _ hrecord => exact absurd rfl (hrecord ip verdict)
  · rw [hobserve]
    cases hpays with
    | failed username password => exact absurd rfl (hverify username password none)
    | recorded verdict => exact absurd rfl (hrecord context.peer.ip verdict)
    | counted | other => cases hit <;> rfl

/-- A call of `record_failure` is seen when it ends a debt. -/
theorem countP_recorded_of_pays (hpays : Pays context.peer d event d') (s : Server) (stamp : Nat)
    {p : ServerLog → Bool} {hit : Bool}
    (hverified : ∀ result t, p (.verified context result t) = false)
    (hrecorded : ∀ verdict t, p (.failureRecorded context.peer.ip verdict t) = hit)
    (hbanned : ∀ ip t0, p (.banTriggered ip t0) = false) :
    (s.observe context stamp event).countP p = (hit && d = .record).toNat := by
  rcases observe_cases s context stamp event with ⟨username, password, result, rfl, hobserve⟩ |
    ⟨ip, verdict, rfl, hobserve⟩ | ⟨hobserve, -, hrecord⟩
  · rw [hobserve, List.countP_singleton, hverified]
    cases hpays <;> cases hit <;> rfl
  · cases hpays with
    | recorded =>
      rw [hobserve, List.countP_cons, hrecorded]
      split <;> cases hit <;> simp [hbanned]
    | other _ _ hrecord => exact absurd rfl (hrecord ip verdict)
  · rw [hobserve]
    cases hpays with
    | recorded verdict => exact absurd rfl (hrecord context.peer.ip verdict)
    | failed | counted | other => cases hit <;> rfl

theorem records_of_pays {peer : SocketAddr} (hpays : Pays peer d event d') (ip : IpAddr)
    (i stamp : Nat) : (ServerEvent.connection i event stamp).records ip =
      (decide (peer.ip = ip) && d = .record) := by
  cases hpays with
  | recorded => simp [ServerEvent.records]
  | failed | counted => simp [ServerEvent.records]
  | other _ _ hrecord =>
    unfold ServerEvent.records
    split
    · next ip' verdict _ heq =>
      cases heq
      exact absurd rfl (hrecord ip' verdict)
    · simp

/-- The counter goes up by the calls that are made for it. -/
theorem authFailures_of_pays {peer : SocketAddr} (hpays : Pays peer d event d') {stamp : Nat}
    {state state' : ServerState} (h : state.connectionStep stamp event = some state') :
    state'.stats.authFailures.value =
      state.stats.authFailures.value + UInt64.ofNat (decide (d = .both)).toNat := by
  unfold ServerState.connectionStep at h
  split at h
  · cases hpays with
    | recorded =>
      dsimp only at h
      split at h
      · obtain rfl := Option.some.inj h
        exact (UInt64.add_zero _).symm
      · cases h
    | other _ _ hrecord => exact absurd rfl (hrecord _ _)
  · obtain rfl := Option.some.inj h
    cases hpays with
    | counted => rfl
    | other _ hincrement => exact absurd rfl (hincrement _)
  · next hrecord hincrement =>
    obtain rfl := Option.some.inj h
    cases hpays with
    | counted => exact absurd rfl (hincrement ())
    | failed | recorded | other => exact (UInt64.add_zero _).symm

end Observed

/-- Checks, counter and ban list agree, up to what the connections owe. -/
structure FailuresAgree (es : List (Nat × ServerEvent)) (s : Server) : Prop where
  recorded : ∀ ip, s.log.countP (ServerLog.isFailedCheck ip) =
    es.countP (fun e => e.2.records ip) + s.connections.countP (Connection.owes ip)
  counted : s.state.stats.authFailures.value +
    UInt64.ofNat (s.connections.countP Connection.owesCount) =
      UInt64.ofNat (s.log.countP ServerLog.isFailed)

namespace FailuresAgree

variable {es : List (Nat × ServerEvent)} {s s' : Server}

theorem new (config : ServerConfig) (start : Nat) : FailuresAgree [] (.new config start) where
  recorded _ := rfl
  counted := rfl

/-- A step: what fails is owed, and what is no longer owed has been recorded and counted. -/
theorem balance (h : FailuresAgree es s) {e : Nat × ServerEvent} {entries : List ServerLog}
    (hlog : s'.log = s.log ++ entries)
    (hrecorded : ∀ ip, entries.countP (ServerLog.isFailedCheck ip) +
      s.connections.countP (Connection.owes ip) =
        (e.2.records ip).toNat + s'.connections.countP (Connection.owes ip))
    (n : Nat) (hvalue : s'.state.stats.authFailures.value =
      s.state.stats.authFailures.value + UInt64.ofNat n)
    (hcounted : entries.countP ServerLog.isFailed + s.connections.countP Connection.owesCount =
      n + s'.connections.countP Connection.owesCount) :
    FailuresAgree (es ++ [e]) s' := by
  constructor
  · intro ip
    have hold := h.recorded ip
    have hnew := hrecorded ip
    have hone : [e].countP (fun e => e.2.records ip) = (e.2.records ip).toNat := by
      rw [List.countP_singleton]
      cases e.2.records ip <;> rfl
    rw [hlog, List.countP_append, List.countP_append, hone]
    omega
  · rw [hlog, List.countP_append, hvalue, UInt64.add_assoc, ← UInt64.ofNat_add, ← hcounted,
      UInt64.ofNat_add, UInt64.ofNat_add, ← h.counted]
    grind

/-- An event of connection `i`, with what it pays. -/
theorem task (h : FailuresAgree es s) {i t stamp : Nat} {c c' : Connection} {state : ServerState}
    {event : Task.Event ConnSig} {d d' : Debt} (hc : s.connections[i]? = some c)
    (hcontext : c'.context = c.context) (hd : c.debt = d) (hd' : c'.debt = d')
    (hpays : Pays c.context.peer d event d')
    (hstate : s.state.connectionStep stamp event = some state) :
    FailuresAgree (es ++ [(t, .connection i event stamp)])
      (.setConnection { s with state, log := s.log ++ s.observe c.context stamp event } i c') := by
  have howes : ∀ ip, (s.connections.set i c').countP (Connection.owes ip) + (c.owes ip).toNat =
      s.connections.countP (Connection.owes ip) + (c'.owes ip).toNat := fun ip => countP_set_of hc
  have howesCount : (s.connections.set i c').countP Connection.owesCount + c.owesCount.toNat =
      s.connections.countP Connection.owesCount + c'.owesCount.toNat := countP_set_of hc
  simp only [Connection.owes, Connection.owesCount, hcontext, hd, hd'] at howes howesCount
  refine h.balance rfl ?_ _ (authFailures_of_pays hpays hstate) ?_
  · intro ip
    have hentries : (s.observe c.context stamp event).countP (ServerLog.isFailedCheck ip) =
        (decide (c.context.peer.ip = ip) && (d = .nothing && d' = .both)).toNat := by
      refine countP_failed_of_pays hpays s stamp ?_ (fun _ _ _ => rfl) fun _ _ => rfl
      rintro (_ | _) t <;> simp [ServerLog.isFailedCheck]
    have hbalance := hpays.balance (decide (c.context.peer.ip = ip))
    have ho := howes ip
    rw [hentries, records_of_pays hpays]
    show _ + s.connections.countP (Connection.owes ip) =
      _ + (s.connections.set i c').countP (Connection.owes ip)
    omega
  · have hentries : (s.observe c.context stamp event).countP ServerLog.isFailed =
        (true && (d = .nothing && d' = .both)).toNat := by
      refine countP_failed_of_pays hpays s stamp ?_ (fun _ _ _ => rfl) fun _ _ => rfl
      rintro (_ | _) t <;> rfl
    have hbalance := hpays.balance_counter
    rw [hentries, Bool.true_and]
    show _ + s.connections.countP Connection.owesCount =
      _ + (s.connections.set i c').countP Connection.owesCount
    omega

/-- A predicate about who the client of a connection is and what it owes. -/
def AboutDebt (p : Connection → Bool) : Prop :=
  (∀ c, c.debt = .nothing → p c = false) ∧
    ∀ c c', c'.context = c.context → c'.debt = c.debt → p c' = p c

/-- A step about neither a check nor a failure, by which nobody owes more or less. -/
theorem quiet (h : FailuresAgree es s) {e : Nat × ServerEvent} {entries : List ServerLog}
    (he : ∀ ip, e.2.records ip = false) (hlog : s'.log = s.log ++ entries)
    (hentries : ∀ entry ∈ entries, ∀ context t, entry ≠ .verified context none t)
    (howes : ∀ p, AboutDebt p → s'.connections.countP p = s.connections.countP p)
    (hstats : s'.state.stats.authFailures = s.state.stats.authFailures) :
    FailuresAgree (es ++ [e]) s' := by
  refine h.balance hlog ?_ 0 (by simp [hstats]) ?_
  · intro ip
    have hnone : entries.countP (ServerLog.isFailedCheck ip) = 0 := by
      rw [List.countP_eq_zero]
      intro entry hentry hcheck
      unfold ServerLog.isFailedCheck at hcheck
      split at hcheck
      · exact hentries _ hentry _ _ rfl
      · simp at hcheck
    have habout : AboutDebt (Connection.owes ip) :=
      ⟨fun c hc => by simp [Connection.owes, hc],
        fun c c' hcontext hdebt => by simp [Connection.owes, hcontext, hdebt]⟩
    rw [hnone, he ip, howes _ habout]
    rfl
  · have hnone : entries.countP ServerLog.isFailed = 0 := by
      rw [List.countP_eq_zero]
      intro entry hentry hcheck
      unfold ServerLog.isFailed at hcheck
      split at hcheck
      · exact hentries _ hentry _ _ rfl
      · simp at hcheck
    have habout : AboutDebt Connection.owesCount :=
      ⟨fun c hc => by simp [Connection.owesCount, hc],
        fun c c' _ hdebt => by simp [Connection.owesCount, hdebt]⟩
    rw [hnone, howes _ habout]

theorem move (h : FailuresAgree es s)
    (hs : ∀ c ∈ s.connections, c.InSpec s.state.config.users) (t : Nat) {e : ServerEvent}
    (hmove : Move s e s') : FailuresAgree (es ++ [(t, e)]) s' := by
  -- a step within a connection that has nothing to do with checks
  have hset : ∀ {i : Nat} {c c' : Connection} {e : ServerEvent}, s.connections[i]? = some c →
      (∀ ip, e.records ip = false) → c'.context = c.context → c'.debt = c.debt →
      FailuresAgree (es ++ [(t, e)]) (s.setConnection i c') := by
    intro i c c' e hc he hcontext hdebt
    refine h.quiet he (List.append_nil _).symm (by simp) ?_ rfl
    intro p hp
    have hcount : (s.connections.set i c').countP p + (p c).toNat =
        s.connections.countP p + (p c').toNat := countP_set_of hc
    rw [hp.2 c c' hcontext hdebt] at hcount
    exact Nat.add_right_cancel hcount
  cases hmove with
  | run hrun =>
    obtain ⟨hconnections, -, hstats, entries, hlog, hofLoop⟩ := hrun.frame
    refine h.quiet ?_ hlog ?_ (fun p _ => by rw [hconnections]) hstats
    · intro ip
      cases hrun <;> rfl
    · rintro _ hentry context t rfl
      exact hofLoop _ hentry
  | @admitted peer permits =>
    refine h.quiet (fun _ => rfl) rfl (by simp) ?_ rfl
    intro p hp
    have hnew : (Connection.new s.state.config ⟨s.state.lastConnectionId + 1, peer⟩ ⟨1⟩).debt =
        .nothing := taskDebt_eq (wp_serveConnection s.state.config.users _ peer)
    simp [List.countP_append, hp.1 _ hnew]
  | @task i event stamp c c₁ c₂ state _ hc hmay hstate hrelay hstep =>
    have hpays := pays_of_step (hs c (List.mem_of_getElem? hc))
      (Connection.step_after_relayStep hrelay hstep)
    exact h.task hc (Connection.context_of_task hrelay hstep).1 rfl rfl hpays hstate
  | @relayTcp i client target c c' hc hstep =>
    obtain ⟨hworld, -, hcontext⟩ := Connection.step_eq hstep
    have hpays := pays_of_step (hs c (List.mem_of_getElem? hc)) hworld
    refine hset hc (fun _ => rfl) hcontext ?_
    show taskDebt c'.task = taskDebt c.task
    generalize taskDebt c.task = d, taskDebt c'.task = d' at hpays
    cases hpays with
    | other _ _ _ => rfl
  | pump i side outcome hc hrelay hstep => exact hset hc (fun _ => rfl) rfl rfl
  | @finish i c reason hc htask =>
    refine h.quiet (fun _ => rfl) rfl (by simp) ?_ ?_
    · intro p hp
      exact countP_eraseIdx_of hc (hp.1 c (by simp [Connection.debt, htask, taskDebt]))
    · simp only [ServerState.finish]
      split <;> rfl

end FailuresAgree

theorem failuresAgree_of_run {config : ServerConfig} {start : Nat}
    {es : List (Nat × ServerEvent)} {s : Server}
    (h : run Server.step (.new config start) es = some s) : FailuresAgree es s := by
  induction es using List.reverseRecOn generalizing s with
  | nil =>
    obtain rfl : Server.new config start = s := Option.some.inj h
    exact .new config start
  | append_singleton es e ih =>
    obtain ⟨mid, hmid, hstep⟩ := run_concat.mp h
    obtain ⟨-, hmove⟩ := move_of_step hstep
    have hagree := ih hmid
    have hspec := inSpec_of_run hmid
    exact FailuresAgree.move (s := { mid with now := e.1 }) ⟨hagree.recorded, hagree.counted⟩
      hspec e.1 hmove

/-- What a connection that owes something does next, and nothing else. -/
def Connection.PaysNext (c : Connection) (event : Task.Event ConnSig) : Prop :=
  (c.debt = .both ∧ event = .returned .incrementAuthFailures ()) ∨
    (c.debt = .record ∧ ∃ verdict, event = .returned (.recordFailure c.context.peer.ip) verdict)

/--
**No failed check escapes.** In every reachable state, for every client address: the failed
checks are those that `record_failure` was called for, and those of connections that are about
to call it; likewise for the counter. A connection that waits, or has ended, owes nothing, and
one that owes something can only make the call it owes: no timer and no shutdown comes between.
-/
theorem failures_accounted (config : ServerConfig) (start : Nat) (es : List (Nat × ServerEvent))
    (s : Server) (h : run Server.step (.new config start) es = some s) :
    FailuresAgree es s ∧
    (∀ c ∈ s.connections, c.task.settled = true → c.debt = .nothing) ∧
    ∀ i c, s.connections[i]? = some c → c.debt ≠ .nothing →
      (∀ t event stamp s', s.step (t, .connection i event stamp) = some s' → c.PaysNext event) ∧
      ∀ t, s.step (t, .finish i) = none := by
  refine ⟨failuresAgree_of_run h, ?_, ?_⟩
  · intro c _ hsettled
    unfold Connection.debt taskDebt
    split
    · next heq => simp [heq, Task.settled] at hsettled
    · next heq => simp [heq, Task.settled] at hsettled
    · rfl
  · intro i c hc hdebt
    refine ⟨?_, ?_⟩
    · intro t event stamp s' hstep
      obtain ⟨-, hmove⟩ := move_of_step hstep
      cases hmove with
      | @task _ _ _ c₀ c₁ c₂ _ _ hc' hmay hstate hrelay hstep' =>
        obtain rfl : c = c₀ := Option.some.inj (hc.symm.trans hc')
        have hpays := pays_of_step (inSpec_of_run h c (List.mem_of_getElem? hc))
          (Connection.step_after_relayStep hrelay hstep')
        generalize hd : taskDebt c.task = d at hpays
        generalize taskDebt c₂.task = d' at hpays
        cases hpays with
        | counted => exact .inl ⟨hd, rfl⟩
        | recorded verdict => exact .inr ⟨hd, verdict, rfl⟩
        | failed => exact absurd hd hdebt
        | other => exact absurd hd hdebt
      | run hrun => cases hrun
    · intro t
      by_contra hsome
      obtain ⟨s', hs'⟩ := Option.ne_none_iff_exists'.mp hsome
      obtain ⟨-, hmove⟩ := move_of_step hs'
      cases hmove with
      | @finish _ c₀ reason hc' htask =>
        obtain rfl : c = c₀ := Option.some.inj (hc.symm.trans hc')
        exact hdebt (by simp [Connection.debt, htask, taskDebt])
      | run hrun => cases hrun

/-- A check has just failed, and the ban list does not know of it yet. -/
theorem failures_accounted_just_failed :
    let es : List (Nat × ServerEvent) := (0, .accept (.v4 (.new 203 0 113 5) 40000) 0) ::
      (0, .tryAcquire) ::
      [.received [5], .received [1], .received [2], .sent [5, 2], .received [1], .received [1],
        .received [97], .received [1], .received [99], .returned (.verify [97] [99]) none,
        .returned .incrementAuthFailures ()].map fun event => (1, .connection 0 event 1)
    ∃ s, run Server.step (.new smallConfig 0) es = some s ∧
      s.log.countP (ServerLog.isFailedCheck (.v4 (.new 203 0 113 5))) = 1 ∧
      s.connections.map Connection.debt = [.record] ∧ FailuresAgree es s := by
  intro es
  have hrun : (run Server.step (.new smallConfig 0) es).map (fun s =>
      (s.log.countP (ServerLog.isFailedCheck (.v4 (.new 203 0 113 5))),
        s.connections.map Connection.debt)) = some (1, [.record]) := by
    decide +kernel
  obtain ⟨s, hs, hcounts⟩ := Option.map_eq_some_iff.mp hrun
  obtain ⟨hcount, hdebt⟩ := Prod.mk.inj hcounts
  exact ⟨s, hs, hcount, hdebt, (failures_accounted smallConfig 0 es s hs).1⟩

end SocksServer
