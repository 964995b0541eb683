import SocksServer.Policy.BanDurability
import SocksServer.Policy.BanTable
import SocksServer.Server.Failures

/-!
# Bans and connections that are already past the ban check

The ban list is asked in one place, `admit`, and told of failures in another, `authenticate`.
A client may open any number of connections before its first failure, so a ban does not reach
those: each of them still gets its credentials checked. It does so once.

* `ConnStep`, `KeyStep` — checks, failures and calls of `record_failure` of one ban key, with what
  the connections still have to make
* `keyStep_of_run` — the same over whole runs
* `holds_of_run` — a ban in force lets nobody pass the ban check
* `stored_of_run` — what `record_failure` counts stays stored while it is recent
* `ban_locks_out_new_connections` — what a trigger leaves to the clients of its key
-/

namespace SocksServer

open Infra

/-! ## What is counted -/

namespace ServerLog

/-- A client of this key passes the ban check. -/
def isPassOf (key : IpAddr) : ServerLog → Bool
  | .passed peer => banKey peer.ip = key
  | _ => false

/-- A credential check for this key. -/
def isCheckOf (key : IpAddr) : ServerLog → Bool
  | .verified context _ _ => banKey context.peer.ip = key
  | _ => false

/-- A wrong guess of a client with this key. -/
def isGuessOf (key : IpAddr) : ServerLog → Bool
  | .verified context none _ => banKey context.peer.ip = key
  | _ => false

def isRecordOf (key : IpAddr) : ServerLog → Bool
  | .failureRecorded ip _ _ => banKey ip = key
  | _ => false

/-- The failure was counted, and still counts at `limit`. -/
def isCountedOf (config : BanConfig) (key : IpAddr) (limit : Nat) : ServerLog → Bool
  | .failureRecorded ip verdict stamp =>
    banKey ip = key && verdict.isCounted && config.recent limit stamp
  | _ => false

/--
The failure does not count at `limit`: it is too old, or came within an earlier ban, or the table
was full.
-/
def isUncountedOf (config : BanConfig) (key : IpAddr) (limit : Nat) : ServerLog → Bool
  | .failureRecorded ip verdict stamp =>
    banKey ip = key && !(verdict.isCounted && config.recent limit stamp)
  | _ => false

end ServerLog

def ConnLog.isVerified : ConnLog → Bool
  | .verified _ _ _ => true
  | _ => false

namespace Connection

variable (key : IpAddr) (c : Connection)

def hasKey : Bool := banKey c.context.peer.ip = key

/-- The client of this connection has not had its check yet. -/
def isUnchecked : Bool := c.hasKey key && !c.world.log.any ConnLog.isVerified

/-- A failed check that the ban list has not been told of. -/
def owesKey : Bool := c.hasKey key && c.debt ≠ .nothing

end Connection

namespace Server

/-- The client that `admit` is about has this key. -/
def admittingOf (s : Server) (key : IpAddr) : Nat :=
  match s.phase with
  | .admitting peer => if banKey peer.ip = key then 1 else 0
  | _ => 0

/-- The connections of this key that are past the ban check, the one being admitted included. -/
def pastBanCheck (s : Server) (key : IpAddr) : Nat :=
  s.connections.countP (Connection.hasKey key) + s.admittingOf key

/-- Those that have not had their check yet. -/
def unchecked (s : Server) (key : IpAddr) : Nat :=
  s.connections.countP (Connection.isUnchecked key) + s.admittingOf key

def owing (s : Server) (key : IpAddr) : Nat := s.connections.countP (Connection.owesKey key)

/-- This connection is open, or its client is the one that `admit` is about. -/
def IsPast (s : Server) (context : ConnectionContext) : Prop :=
  context ∈ s.connections.map Connection.context ∨ s.phase = .admitting context.peer

end Server

/-! ## Steps of a connection -/

/-- What an event of one connection does to what is counted for a key. -/
structure ConnStep (key : IpAddr) (c c' : Connection) (entries : List ServerLog) : Prop where
  context : c'.context = c.context
  checks : entries.countP (ServerLog.isCheckOf key) + (c'.isUnchecked key).toNat ≤
    (c.isUnchecked key).toNat
  guesses : entries.countP (ServerLog.isGuessOf key) + (c.owesKey key).toNat =
    entries.countP (ServerLog.isRecordOf key) + (c'.owesKey key).toNat
  verified : ∀ context result t, .verified context result t ∈ entries → context = c.context

section ConnStep

variable {key : IpAddr} {c c' : Connection} {users : UserStore}

/-- The log of a connection only grows, so a check is not forgotten. -/
theorem isUnchecked_le {own : List ConnLog} (hcontext : c'.context = c.context)
    (hlog : c'.world.log = c.world.log ++ own) :
    (c'.isUnchecked key).toNat ≤ (c.isUnchecked key).toNat := by
  unfold Connection.isUnchecked Connection.hasKey
  rw [hcontext, hlog, List.any_append]
  cases c.world.log.any ConnLog.isVerified with
  | false =>
    rw [Bool.false_or, Bool.not_false, Bool.and_true]
    exact Bool.toNat_le_toNat (fun h => (Bool.and_eq_true _ _ ▸ h).1)
  | true => simp

/-- A step that the others do not see, by which nothing is owed or paid. -/
theorem ConnStep.quiet {own : List ConnLog} (hcontext : c'.context = c.context)
    (hlog : c'.world.log = c.world.log ++ own) (hdebt : c'.debt = c.debt) :
    ConnStep key c c' [] where
  context := hcontext
  checks := by
    rw [List.countP_nil, Nat.zero_add]
    exact isUnchecked_le hcontext hlog
  guesses := by
    unfold Connection.owesKey Connection.hasKey
    rw [hcontext, hdebt, List.countP_nil, List.countP_nil]
  verified := by simp

/-- **A connection makes at most one check.** -/
theorem Connection.InSpec.verified_le_one (h : c.InSpec users) :
    c.world.log.countP ConnLog.isVerified ≤ 1 := by
  have hlog : LogAt c.context.peer c.world.log := (reached_of_wp h).logAt
  generalize c.world.log = log at hlog
  match log with
  | [] => exact Nat.zero_le _
  | .verified _ _ none :: rest =>
    have hrest : rest.countP ConnLog.isVerified = 0 := by
      rw [List.countP_eq_zero]
      intro entry hmem
      have hentry := hlog.subset hmem
      rcases List.mem_cons.mp hentry with rfl | hentry
      · simp [ConnLog.isVerified]
      · rw [List.mem_singleton.mp hentry]
        simp [ConnLog.isVerified]
    simp [List.countP_cons, hrest, ConnLog.isVerified]
  | .verified _ _ (some _) :: rest =>
    have hrest : rest.countP ConnLog.isVerified = 0 := by
      rw [List.countP_eq_zero]
      intro entry hmem
      have hentry := hlog entry hmem
      cases entry <;> simp_all [ConnLog.isVerified, ConnLog.afterLogin]
    simp [List.countP_cons, hrest, ConnLog.isVerified]
  | .authFailure :: _ | .failureRecorded _ :: _ | .connectToTarget _ _ :: _ | .connected _ :: _
  | .relayStarted _ :: _ | .relayEnded _ :: _ => exact hlog.elim

/-- Who owes something has made its check. -/
theorem Connection.InSpec.not_unchecked_of_owes (key : IpAddr) (h : c.InSpec users)
    (howes : c.owesKey key = true) : c.isUnchecked key = false := by
  unfold owesKey at howes
  rw [Bool.and_eq_true, decide_eq_true_eq] at howes
  have hdebt : c.world.debt ≠ .nothing := by
    rw [← taskDebt_eq h]
    exact howes.2
  have hlog : LogAt c.context.peer c.world.log := (reached_of_wp h).logAt
  unfold ConnWorld.debt at hdebt
  unfold isUnchecked
  split at hdebt
  · next heq => simp [heq, ConnLog.isVerified]
  · next heq => simp [heq, ConnLog.isVerified]
  · exact absurd rfl hdebt

/-- **An event of a connection task.** -/
theorem connStep_of_task {s : Server} {c₁ : Connection} {event : Task.Event ConnSig} {stamp : Nat}
    (h : c.InSpec users) (hrelay : c.relayStep event = some c₁)
    (hstep : c₁.step users event = some c') :
    ConnStep key c c' (s.observe c.context stamp event) := by
  have hcontext := (Connection.context_of_task hrelay hstep).1
  have hworld := Connection.step_after_relayStep hrelay hstep
  obtain ⟨-, own, hlog, hrecords⟩ := records_of_step hworld
  have hpays : Pays c.context.peer c.debt event c'.debt := pays_of_step h hworld
  have hafter : LogAt c.context.peer (c.world.log ++ own) := by
    rw [← hlog]
    exact (reached_of_wp (Task.wp_step h hworld)).logAt
  have hkey : c'.hasKey key = c.hasKey key := by rw [Connection.hasKey, hcontext, Connection.hasKey]
  refine ⟨hcontext, ?_, ?_, ?_⟩
  · -- a check is the first thing that is logged
    unfold Server.observe
    split
    · cases hrecords with
      | nothing hnone => exact absurd rfl (hnone _ _ _)
      | verified _ =>
        have hempty := LogAt.eq_nil_of_verified hafter
        unfold Connection.isUnchecked Connection.hasKey
        rw [hcontext, hlog, hempty, List.countP_singleton]
        by_cases hip : banKey c.context.peer.ip = key <;>
          simp [ServerLog.isCheckOf, ConnLog.isVerified, hip]
    · next ip verdict =>
      have hnone : (if s.state.banList.triggers ip stamp then [ServerLog.banTriggered ip stamp]
          else []).countP (ServerLog.isCheckOf key) = 0 := by
        split <;> rfl
      rw [List.countP_cons, hnone]
      simpa [ServerLog.isCheckOf] using isUnchecked_le hcontext hlog
    · rw [List.countP_nil, Nat.zero_add]
      exact isUnchecked_le hcontext hlog
  · have hguess : (s.observe c.context stamp event).countP (ServerLog.isGuessOf key) =
        (c.hasKey key && (c.debt = .nothing && c'.debt = .both)).toNat := by
      refine countP_failed_of_pays hpays s stamp ?_ (fun _ _ _ => rfl) fun _ _ => rfl
      rintro (_ | _) t <;> simp [ServerLog.isGuessOf, Connection.hasKey]
    have hrecord : (s.observe c.context stamp event).countP (ServerLog.isRecordOf key) =
        (c.hasKey key && c.debt = .record).toNat :=
      countP_recorded_of_pays hpays s stamp (fun _ _ => rfl) (fun _ _ => rfl) fun _ _ => rfl
    rw [hguess, hrecord]
    unfold Connection.owesKey
    rw [hkey]
    exact hpays.balance (c.hasKey key)
  · intro context' result t hmem
    rcases observe_cases s c.context stamp event with ⟨username, password, result, -, hobserve⟩ |
      ⟨ip, verdict, -, hobserve⟩ | ⟨hobserve, -⟩
    · rw [hobserve] at hmem
      exact (ServerLog.verified.inj (List.mem_singleton.mp hmem)).1
    · rw [hobserve] at hmem
      split at hmem <;> simp at hmem
    · rw [hobserve] at hmem
      cases hmem

end ConnStep

/-! ## Steps of the server -/

/-- What a step does to what is counted for a key, and who is past the ban check after it. -/
structure KeyStep (key : IpAddr) (s s' : Server) (entries : List ServerLog) : Prop where
  log : s'.log = s.log ++ entries
  checks : entries.countP (ServerLog.isCheckOf key) + s'.unchecked key ≤
    s.unchecked key + entries.countP (ServerLog.isPassOf key)
  guesses : entries.countP (ServerLog.isGuessOf key) + s.owing key =
    entries.countP (ServerLog.isRecordOf key) + s'.owing key
  past : ∀ context, s'.IsPast context → s.IsPast context ∨ .passed context.peer ∈ entries
  verified : ∀ context result t, .verified context result t ∈ entries →
    s.IsPast context ∨ .passed context.peer ∈ entries

/-- What the accept loop writes is no check, no failure and no call of `record_failure`. -/
theorem countP_of_ofLoop {entries : List ServerLog} (h : ∀ entry ∈ entries, entry.ofLoop)
    (p : ServerLog → Bool) (hp : ∀ entry, p entry = true → ¬ entry.ofLoop) :
    entries.countP p = 0 := by
  rw [List.countP_eq_zero]
  exact fun entry hmem htrue => hp entry htrue (h entry hmem)

namespace ServerLog

variable {key : IpAddr} {entry : ServerLog}

theorem not_ofLoop_of_isCheckOf (h : entry.isCheckOf key = true) : ¬ entry.ofLoop := by
  cases entry with
  | verified => exact not_false
  | _ => cases h

theorem not_ofLoop_of_isGuessOf (h : entry.isGuessOf key = true) : ¬ entry.ofLoop := by
  cases entry with
  | verified => exact not_false
  | _ => cases h

theorem not_ofLoop_of_isRecordOf (h : entry.isRecordOf key = true) : ¬ entry.ofLoop := by
  cases entry with
  | failureRecorded => exact not_false
  | _ => cases h

end ServerLog

section KeyStep

variable {key : IpAddr} {s s' mid : Server}

/-- Who `admit` is about after a step of the accept loop. -/
theorem RunStep.admitting {e : ServerEvent} (h : RunStep s e s') (key : IpAddr) :
    ∃ entries, s'.log = s.log ++ entries ∧ (∀ entry ∈ entries, entry.ofLoop) ∧
      s'.admittingOf key ≤ s.admittingOf key + entries.countP (ServerLog.isPassOf key) ∧
      ∀ peer, s'.phase = .admitting peer → s.phase = .admitting peer ∨ .passed peer ∈ entries := by
  cases h with
  | passed peer =>
    refine ⟨_, rfl, by simp [ServerLog.ofLoop], ?_, ?_⟩
    · simp [Server.admittingOf, ServerLog.isPassOf, List.countP_singleton]
    · rintro _ ⟨⟩
      exact .inr List.mem_cons_self
  | notWhitelisted peer | banned peer =>
    exact ⟨_, rfl, by simp [ServerLog.ofLoop], Nat.le_add_right _ _, fun _ h => .inl h⟩
  | acceptFailed | purge =>
    exact ⟨[], (List.append_nil _).symm, by simp, Nat.le_add_right _ _, fun _ h => .inl h⟩
  | overLimit =>
    exact ⟨_, rfl, by simp [ServerLog.ofLoop], Nat.zero_le _, by rintro _ ⟨⟩⟩
  | _ => exact ⟨[], (List.append_nil _).symm, by simp, Nat.zero_le _, by rintro _ ⟨⟩⟩

theorem KeyStep.refl (key : IpAddr) (s : Server) : KeyStep key s s [] where
  log := (List.append_nil _).symm
  checks := by simp
  guesses := rfl
  past _ h := .inl h
  verified := by simp

theorem KeyStep.trans {entries entries' : List ServerLog} (h : KeyStep key s mid entries)
    (h' : KeyStep key mid s' entries') : KeyStep key s s' (entries ++ entries') where
  log := by rw [h'.log, h.log, List.append_assoc]
  checks := by
    have hfirst := h.checks
    have hsecond := h'.checks
    rw [List.countP_append, List.countP_append]
    omega
  guesses := by
    have hfirst := h.guesses
    have hsecond := h'.guesses
    rw [List.countP_append, List.countP_append]
    omega
  past := by
    intro context hpast
    rcases h'.past context hpast with hpast | hpassed
    · exact (h.past context hpast).imp_right (List.mem_append_left _)
    · exact .inr (List.mem_append_right _ hpassed)
  verified := by
    intro context result t hmem
    rcases List.mem_append.mp hmem with hmem | hmem
    · exact (h.verified context result t hmem).imp_right (List.mem_append_left _)
    · rcases h'.verified context result t hmem with hpast | hpassed
      · exact (h.past context hpast).imp_right (List.mem_append_left _)
      · exact .inr (List.mem_append_right _ hpassed)

/-- A step of one connection, in the server. -/
theorem KeyStep.set {i : Nat} {c c' : Connection} {state : ServerState} {entries : List ServerLog}
    (hc : s.connections[i]? = some c) (h : ConnStep key c c' entries) :
    KeyStep key s (.setConnection { s with state, log := s.log ++ entries } i c') entries where
  log := rfl
  checks := by
    have hstep := h.checks
    have hcount : (s.connections.set i c').countP (Connection.isUnchecked key) +
        (c.isUnchecked key).toNat =
          s.connections.countP (Connection.isUnchecked key) + (c'.isUnchecked key).toNat :=
      countP_set_of hc
    show _ + ((s.connections.set i c').countP (Connection.isUnchecked key) + s.admittingOf key) ≤
      s.connections.countP (Connection.isUnchecked key) + s.admittingOf key + _
    omega
  guesses := by
    have hstep := h.guesses
    have hcount : (s.connections.set i c').countP (Connection.owesKey key) +
        (c.owesKey key).toNat =
          s.connections.countP (Connection.owesKey key) + (c'.owesKey key).toNat :=
      countP_set_of hc
    show _ + s.connections.countP (Connection.owesKey key) =
      _ + (s.connections.set i c').countP (Connection.owesKey key)
    omega
  past := by
    rintro context (hopen | hadmit)
    · have hopen : context ∈ (s.connections.set i c').map Connection.context := hopen
      rw [map_context_set hc h.context] at hopen
      exact .inl (.inl hopen)
    · exact .inl (.inr hadmit)
  verified := by
    intro context result t hmem
    rw [h.verified context result t hmem]
    exact .inl (.inl (List.mem_map_of_mem (List.mem_of_getElem? hc)))

/-- A step of one connection that the others do not see. -/
theorem KeyStep.set_quiet {i : Nat} {c c' : Connection} (hc : s.connections[i]? = some c)
    (h : ConnStep key c c' []) : KeyStep key s (s.setConnection i c') [] := by
  have hset : KeyStep key s (.setConnection { s with log := s.log ++ [] } i c') [] := .set hc h
  rw [List.append_nil] at hset
  exact hset

/-- A step of the accept loop or of `drain`. -/
theorem KeyStep.of_runStep (key : IpAddr) {e : ServerEvent} (h : RunStep s e s') :
    ∃ entries, KeyStep key s s' entries := by
  obtain ⟨entries, hlog, hofLoop, hadmitting, hphase⟩ := h.admitting key
  have hconnections := h.frame.1
  refine ⟨entries, hlog, ?_, ?_, ?_, ?_⟩
  · rw [countP_of_ofLoop hofLoop _ fun _ => ServerLog.not_ofLoop_of_isCheckOf]
    unfold Server.unchecked
    rw [hconnections]
    omega
  · rw [countP_of_ofLoop hofLoop _ fun _ => ServerLog.not_ofLoop_of_isGuessOf,
      countP_of_ofLoop hofLoop _ fun _ => ServerLog.not_ofLoop_of_isRecordOf]
    unfold Server.owing
    rw [hconnections]
  · rintro context (hopen | hadmit)
    · rw [hconnections] at hopen
      exact .inl (.inl hopen)
    · exact (hphase _ hadmit).imp_left .inr
  · intro context result t hmem
    exact (hofLoop _ hmem).elim

/-- An admission: the client goes from the phase into the list. -/
theorem KeyStep.admitted (key : IpAddr) {peer : SocketAddr} {state : ServerState} {id : UInt64}
    (hphase : s.phase = .admitting peer) :
    KeyStep key s { s with
      state, phase := .accepting
      connections := s.connections ++ [.new s.state.config ⟨id, peer⟩ ⟨1⟩]
      log := s.log ++ [.accepted peer (.admitted ⟨id, peer⟩ ⟨1⟩)] }
      [.accepted peer (.admitted ⟨id, peer⟩ ⟨1⟩)] where
  log := rfl
  checks := by
    simp [Server.unchecked, Server.admittingOf, hphase, ServerLog.isCheckOf, List.countP_append,
      Connection.isUnchecked, Connection.hasKey, Connection.new, ConnWorld.new]
  guesses := by
    have hnew : (Connection.new s.state.config ⟨id, peer⟩ ⟨1⟩).debt = .nothing :=
      taskDebt_eq (wp_serveConnection s.state.config.users _ peer)
    simp [Server.owing, Connection.owesKey, List.countP_append, hnew, ServerLog.isGuessOf,
      ServerLog.isRecordOf]
  past := by
    rintro context (hopen | hadmit)
    · rw [List.map_append, List.mem_append] at hopen
      rcases hopen with hopen | hnew
      · exact .inl (.inl hopen)
      · rw [List.map_singleton, List.mem_singleton] at hnew
        rw [hnew]
        exact .inl (.inr hphase)
    · cases hadmit
  verified := by simp

/-- The end of a connection, which owes nothing then. -/
theorem KeyStep.finish (key : IpAddr) {i : Nat} {c : Connection} {state : ServerState}
    {reason : CloseReason} (hc : s.connections[i]? = some c) (htask : c.task = .done reason) :
    KeyStep key s { s with
      state, connections := s.connections.eraseIdx i
      log := s.log ++ [.finished c.context reason c.counters] }
      [.finished c.context reason c.counters] where
  log := rfl
  checks := by
    have hle :=
      (List.eraseIdx_sublist s.connections i).countP_le (p := Connection.isUnchecked key)
    show _ + ((s.connections.eraseIdx i).countP (Connection.isUnchecked key) +
      s.admittingOf key) ≤ _
    simp only [ServerLog.isCheckOf, List.countP_singleton, Server.unchecked,
      Bool.false_eq_true, if_false]
    omega
  guesses := by
    have hpaid : c.owesKey key = false := by
      simp [Connection.owesKey, Connection.debt, htask, taskDebt]
    show _ = _ + (s.connections.eraseIdx i).countP (Connection.owesKey key)
    rw [countP_eraseIdx_of hc hpaid]
    rfl
  past := by
    rintro context (hopen | hadmit)
    · exact .inl (.inl (List.map_subset _ (List.eraseIdx_sublist _ i).subset hopen))
    · exact .inl (.inr hadmit)
  verified := by simp

/-- **A step of the server**, as far as a key is concerned. -/
theorem KeyStep.of_move (key : IpAddr)
    (hs : ∀ c ∈ s.connections, c.InSpec s.state.config.users)
    {e : ServerEvent} (hmove : Move s e s') : ∃ entries, KeyStep key s s' entries := by
  cases hmove with
  | run hrun => exact KeyStep.of_runStep key hrun
  | admitted hphase => exact ⟨_, .admitted key hphase⟩
  | @task i event stamp c c₁ c₂ state _ hc hmay hstate hrelay hstep =>
    exact ⟨_, .set hc (connStep_of_task (hs c (List.mem_of_getElem? hc)) hrelay hstep)⟩
  | @relayTcp i client target c c' hc hstep =>
    obtain ⟨hworld, -, hcontext⟩ := Connection.step_eq hstep
    obtain ⟨-, own, hlog, -⟩ := records_of_step hworld
    have hpays := pays_of_step (hs c (List.mem_of_getElem? hc)) hworld
    refine ⟨[], .set_quiet hc (.quiet hcontext hlog ?_)⟩
    show taskDebt c'.task = taskDebt c.task
    generalize taskDebt c.task = d, taskDebt c'.task = d' at hpays
    cases hpays with
    | other _ _ _ => rfl
  | pump i side outcome hc hrelay hstep =>
    exact ⟨[], .set_quiet hc (.quiet rfl (List.append_nil _).symm rfl)⟩
  | finish i hc htask => exact ⟨_, .finish key hc htask⟩

theorem KeyStep.of_step (key : IpAddr)
    (hs : ∀ c ∈ s.connections, c.InSpec s.state.config.users)
    {e : Nat × ServerEvent} (h : s.step e = some s') : ∃ entries, KeyStep key s s' entries := by
  obtain ⟨-, hmove⟩ := move_of_step h
  obtain ⟨entries, hstep⟩ := KeyStep.of_move (s := { s with now := e.1 }) key hs hmove
  exact ⟨entries, hstep.log, hstep.checks, hstep.guesses, hstep.past, hstep.verified⟩

/-- **A run**, as far as a key is concerned. -/
theorem keyStep_of_run (key : IpAddr) {config : ServerConfig} {start : Nat}
    {es₀ es : List (Nat × ServerEvent)} (h₀ : run Server.step (.new config start) es₀ = some s) (h : run Server.step s es = some s') :
    ∃ entries, KeyStep key s s' entries := by
  induction es using List.reverseRecOn generalizing s' with
  | nil =>
    obtain rfl : s = s' := Option.some.inj h
    exact ⟨[], .refl key s⟩
  | append_singleton es e ih =>
    obtain ⟨mid, hmid, hstep⟩ := run_concat.mp h
    obtain ⟨entries, hbefore⟩ := ih hmid
    obtain ⟨entries', hafter⟩ :=
      KeyStep.of_step key (inSpec_of_run (run_append.mpr ⟨s, h₀, hmid⟩)) hstep
    exact ⟨entries ++ entries', hbefore.trans hafter⟩

end KeyStep

/-! ## The ban list -/

/-- The entry tells of the ban list. -/
def ServerLog.ofBans : ServerLog → Prop
  | .passed _ => True
  | .failureRecorded _ _ _ => True
  | .banTriggered _ _ => True
  | _ => False

/-- What a step at `now` does to the ban list, and what the log says of that. -/
inductive BanChange (bans : BanListInner) (now : Nat) : BanListInner → List ServerLog → Prop
  | same {entries : List ServerLog} : (∀ entry ∈ entries, ¬ entry.ofBans) →
    BanChange bans now bans entries
  | passed (peer : SocketAddr) {stamp : Nat} : stamp ≤ now →
    bans.isBanned peer.ip stamp = false → BanChange bans now bans [.passed peer]
  | purge {stamp : Nat} : stamp ≤ now → BanChange bans now (bans.purge stamp).2 []
  | record (ip : IpAddr) {stamp : Nat} : stamp ≤ now →
    BanChange bans now (bans.recordFailure ip stamp).2
      (.failureRecorded ip (bans.recordFailure ip stamp).1 stamp ::
        if bans.triggers ip stamp then [.banTriggered ip stamp] else [])

section BanChange

variable {config : BanConfig} {key : IpAddr} {s s' : Server} {bans bans' : BanListInner}
variable {now : Nat} {entries : List ServerLog}

theorem Change.banChange (h : Change s s') :
    s'.now = s.now ∧ ∃ entries, s'.log = s.log ++ entries ∧
      BanChange s.state.banList s.now s'.state.banList entries := by
  cases h with
  | run hrun =>
    cases hrun with
    | passed peer _ hstamp _ hban =>
      rw [← ip_canonicalAddr] at hban
      exact ⟨rfl, _, rfl, .passed _ hstamp hban⟩
    | purge hstamp => exact ⟨rfl, [], (List.append_nil _).symm, .purge hstamp⟩
    | notWhitelisted | banned | overLimit =>
      exact ⟨rfl, _, rfl, .same (by simp [ServerLog.ofBans])⟩
    | _ => exact ⟨rfl, [], (List.append_nil _).symm, .same (by simp)⟩
  | admitted => exact ⟨rfl, _, rfl, .same (by simp [ServerLog.ofBans])⟩
  | connection i hc hcontext hpermit hshared =>
    cases hshared with
    | none => exact ⟨rfl, _, rfl, .same (by simp)⟩
    | verified result => exact ⟨rfl, _, rfl, .same (by simp [ServerLog.ofBans])⟩
    | authFailure => exact ⟨rfl, _, rfl, .same (by simp)⟩
    | recordFailure ip hstamp => exact ⟨rfl, _, rfl, .record ip hstamp⟩
  | finish i reason hc => exact ⟨rfl, _, rfl, .same (by simp [ServerLog.ofBans])⟩

/-- **A step**, as far as the ban list is concerned. -/
theorem bans_of_step {e : Nat × ServerEvent} (h : s.step e = some s') :
    s.now ≤ s'.now ∧ ∃ entries, s'.log = s.log ++ entries ∧
      BanChange s.state.banList s'.now s'.state.banList entries := by
  obtain ⟨hnow, hchange⟩ := change_of_step h
  obtain ⟨hsame, entries, hlog, hbans⟩ := hchange.banChange
  rw [hsame]
  exact ⟨hnow, entries, hlog, hbans⟩

theorem BanChange.config_eq (h : BanChange bans now bans' entries) :
    bans'.config = bans.config := by
  cases h with
  | record ip => exact BanListInner.config_recordFailure _ _ _
  | _ => rfl

theorem TableShape.of_change (h : TableShape config bans)
    (hchange : BanChange bans now bans' entries) : TableShape config bans' := by
  cases hchange with
  | same | passed => exact h
  | purge => exact h.purge _
  | record ip => exact h.recordFailure ip _

/-- A ban in force stays, and lets nobody of its key pass. -/
theorem HoldsBan.of_change {t0 : Nat} (h : HoldsBan config key t0 bans) (ht : t0 ≤ now)
    (hnow : now < t0 + config.duration) (hchange : BanChange bans now bans' entries) :
    HoldsBan config key t0 bans' ∧ ∀ peer, .passed peer ∈ entries → banKey peer.ip ≠ key := by
  have hd : 0 < config.duration := by omega
  cases hchange with
  | same hentries => exact ⟨h, fun peer hmem => (hentries _ hmem trivial).elim⟩
  | passed peer hstamp hban =>
    refine ⟨h, ?_⟩
    rintro peer' hmem rfl
    obtain rfl := ServerLog.passed.inj (List.mem_singleton.mp hmem)
    -- the stamp of `is_banned` may lie before the trigger; it finds the ban all the same
    rw [isBanned_eq_active, h.1, h.banActive hd (by omega)] at hban
    cases hban
  | purge hstamp => exact ⟨⟨h.1, h.maybePurged hd (by omega) (.inr rfl)⟩, by simp⟩
  | record ip hstamp =>
    refine ⟨h.recordFailure hd (by omega) ip, ?_⟩
    intro peer hmem
    split at hmem <;> simp at hmem

/-- What is counted in a step stays stored. -/
theorem storedAt_of_change (key : IpAddr) {limit : Nat} (hconfig : bans.config = config)
    (hlimit : now ≤ limit)
    (hchange : BanChange bans now bans' entries)
    (hnone : ∀ ip t, .banTriggered ip t ∈ entries → banKey ip ≠ key) :
    storedAt config bans key limit +
        entries.countP (ServerLog.isCountedOf config key limit) ≤
      storedAt config bans' key limit := by
  cases hchange with
  | same hentries =>
    have hzero : entries.countP (ServerLog.isCountedOf config key limit) = 0 := by
      rw [List.countP_eq_zero]
      intro entry hmem hcounted
      cases entry with
      | failureRecorded => exact hentries _ hmem trivial
      | _ => cases hcounted
    rw [hzero]
    exact le_rfl
  | passed => exact le_rfl
  | purge hstamp => exact storedAt_maybePurged key hconfig (by omega) (.inr rfl)
  | @record ip stamp hstamp =>
    have hstored := storedAt_recordFailure key hconfig (hstamp.trans hlimit)
      fun htriggers => hnone ip stamp (by simp [htriggers])
    have hentry : ((if bans.triggers ip stamp then [.banTriggered ip stamp] else []) :
        List ServerLog).countP (ServerLog.isCountedOf config key limit) = 0 := by
      split <;> rfl
    rw [List.countP_cons, hentry, Nat.zero_add, ite_eq_toNat]
    exact hstored

/-- A step that logs a trigger has started that ban, at its own stamp. -/
theorem holds_of_trigger {e : Nat × ServerEvent} {ip : IpAddr} {t0 : Nat}
    (hconfig : s.state.banList.config = config) (h : s.step e = some s')
    (hlog : s'.log = s.log ++ [.failureRecorded ip .banned t0, .banTriggered ip t0]) :
    t0 ≤ s'.now ∧ HoldsBan config (banKey ip) t0 s'.state.banList := by
  obtain ⟨-, entries, hentries, hchange⟩ := bans_of_step h
  obtain rfl := List.append_cancel_left (hentries.symm.trans hlog)
  generalize hbans : s'.state.banList = bans at hchange
  generalize he : [ServerLog.failureRecorded ip .banned t0, .banTriggered ip t0] = entries
    at hchange
  cases hchange with
  | same hnone =>
    subst he
    exact (hnone _ List.mem_cons_self trivial).elim
  | passed | purge => cases he
  | record ip' hstamp =>
    obtain ⟨hentry, htriggers⟩ := List.cons.inj he
    obtain ⟨rfl, -, rfl⟩ := ServerLog.failureRecorded.inj hentry
    split at htriggers
    · next htrue => exact ⟨hstamp, holdsBan_of_triggers hconfig htrue⟩
    · cases htriggers

/-- **While a ban is in force**, nobody of its key passes the ban check. -/
theorem holds_of_run {es : List (Nat × ServerEvent)} {t0 : Nat} (ht : t0 ≤ s.now)
    (hheld : HoldsBan config key t0 s.state.banList) (h : run Server.step s es = some s') :
    s.now ≤ s'.now ∧ ∃ entries, s'.log = s.log ++ entries ∧ (s'.now < t0 + config.duration →
      HoldsBan config key t0 s'.state.banList ∧
        ∀ peer, .passed peer ∈ entries → banKey peer.ip ≠ key) := by
  induction es using List.reverseRecOn generalizing s' with
  | nil =>
    obtain rfl : s = s' := Option.some.inj h
    exact ⟨le_rfl, [], (List.append_nil _).symm, fun _ => ⟨hheld, by simp⟩⟩
  | append_singleton es e ih =>
    obtain ⟨mid, hmid, hstep⟩ := run_concat.mp h
    obtain ⟨hbefore, entries, hlog, hold⟩ := ih hmid
    obtain ⟨hafter, entries', hlog', hchange⟩ := bans_of_step hstep
    refine ⟨hbefore.trans hafter, entries ++ entries', ?_, ?_⟩
    · rw [hlog', hlog, List.append_assoc]
    · intro hnow
      obtain ⟨hmidheld, hnone⟩ := hold (by omega)
      obtain ⟨hlast, hnone'⟩ := HoldsBan.of_change hmidheld
        (ht.trans (hbefore.trans hafter)) hnow hchange
      refine ⟨hlast, ?_⟩
      intro peer hmem
      exact (List.mem_append.mp hmem).elim (hnone peer) (hnone' peer)

/-- **What is counted stays stored**, until it is too old or a ban starts. -/
theorem stored_of_run (key : IpAddr) {es : List (Nat × ServerEvent)} {limit : Nat}
    (hconfig : s.state.banList.config = config) (h : run Server.step s es = some s')
    (hlimit : s'.now ≤ limit) :
    s'.state.banList.config = config ∧ ∃ entries, s'.log = s.log ++ entries ∧
      ((∀ ip t, .banTriggered ip t ∈ entries → banKey ip ≠ key) →
        entries.countP (ServerLog.isCountedOf config key limit) ≤
          storedAt config s'.state.banList key limit) := by
  induction es using List.reverseRecOn generalizing s' with
  | nil =>
    obtain rfl : s = s' := Option.some.inj h
    exact ⟨hconfig, [], (List.append_nil _).symm, fun _ => Nat.zero_le _⟩
  | append_singleton es e ih =>
    obtain ⟨mid, hmid, hstep⟩ := run_concat.mp h
    obtain ⟨hnow, entries', hlog', hchange⟩ := bans_of_step hstep
    obtain ⟨hmidconfig, entries, hlog, hstored⟩ := ih hmid (by omega)
    refine ⟨hchange.config_eq.trans hmidconfig, entries ++ entries', ?_, ?_⟩
    · rw [hlog', hlog, List.append_assoc]
    · intro hnone
      have hbefore := hstored fun ip t hmem => hnone ip t (List.mem_append_left _ hmem)
      have hafter := storedAt_of_change key hmidconfig hlimit hchange
        fun ip t hmem => hnone ip t (List.mem_append_right _ hmem)
      rw [List.countP_append]
      exact (Nat.add_le_add_right hbefore _).trans hafter

end BanChange

theorem tableShape_of_run {config : ServerConfig} {start : Nat} {es : List (Nat × ServerEvent)}
    {s : Server} (h : run Server.step (.new config start) es = some s) :
    TableShape config.ban s.state.banList := by
  refine run_invariant (I := fun s => TableShape config.ban s.state.banList) ?_
    (TableShape.new config.ban) h
  intro s e s' hs he
  obtain ⟨-, entries, -, hchange⟩ := bans_of_step he
  exact TableShape.of_change hs hchange

/-! ## What a trigger leaves -/

/-- What happens to the clients of a key between `s₁`, where its ban starts, and `s₂`. -/
structure LockedOut (key : IpAddr) (s₁ s₂ : Server) (later : List ServerLog) : Prop where
  log : s₂.log = s₁.log ++ later
  /-- Nobody passes the ban check. -/
  passed : ∀ peer, .passed peer ∈ later → banKey peer.ip ≠ key
  /-- Who is open or about to be admitted was past the ban check in `s₁`. -/
  past : ∀ context, banKey context.peer.ip = key → s₂.IsPast context → s₁.IsPast context
  /-- So was every connection whose credentials are checked. -/
  verified : ∀ context result t, .verified context result t ∈ later →
    banKey context.peer.ip = key → s₁.IsPast context
  /-- Each of those has its credentials checked once at most, counting the time before `s₁`. -/
  checks : later.countP (ServerLog.isCheckOf key) + s₂.unchecked key ≤ s₁.unchecked key

theorem KeyStep.lockedOut {key : IpAddr} {s₁ s₂ : Server} {later : List ServerLog}
    (h : KeyStep key s₁ s₂ later) (hpassed : ∀ peer, .passed peer ∈ later → banKey peer.ip ≠ key) :
    LockedOut key s₁ s₂ later where
  log := h.log
  passed := hpassed
  past context hkey hpast :=
    (h.past context hpast).resolve_right fun hmem => hpassed _ hmem hkey
  verified context result t hmem hkey :=
    (h.verified context result t hmem).resolve_right fun hmem => hpassed _ hmem hkey
  checks := by
    have hchecks := h.checks
    have hnone : later.countP (ServerLog.isPassOf key) = 0 := by
      rw [List.countP_eq_zero]
      intro entry hmem hpass
      cases entry with
      | passed peer => exact hpassed peer hmem (of_decide_eq_true hpass)
      | _ => cases hpass
    omega

/-- A failure recorded is counted, or it is not. -/
theorem countP_isRecordOf (config : BanConfig) (key : IpAddr) (limit : Nat)
    (entries : List ServerLog) :
    entries.countP (ServerLog.isRecordOf key) =
      entries.countP (ServerLog.isCountedOf config key limit) +
        entries.countP (ServerLog.isUncountedOf config key limit) := by
  induction entries with
  | nil => rfl
  | cons entry entries ih =>
    have hentry : (entry.isRecordOf key).toNat =
        (entry.isCountedOf config key limit).toNat +
          (entry.isUncountedOf config key limit).toNat := by
      cases entry with
      | failureRecorded ip verdict stamp =>
        simp only [ServerLog.isRecordOf, ServerLog.isCountedOf, ServerLog.isUncountedOf,
          Bool.and_assoc]
        cases decide (banKey ip = key) <;>
          cases verdict.isCounted && config.recent limit stamp <;> rfl
      | _ => rfl
    rw [List.countP_cons, List.countP_cons, List.countP_cons, ite_eq_toNat, ite_eq_toNat,
      ite_eq_toNat]
    omega

/-- Who has not had its check owes nothing. -/
theorem owing_add_unchecked_le {s : Server} {users : UserStore} (key : IpAddr)
    (h : ∀ c ∈ s.connections, c.InSpec users) :
    s.owing key + s.unchecked key ≤ s.pastBanCheck key := by
  have hle : ∀ connections : List Connection, (∀ c ∈ connections, c.InSpec users) →
      connections.countP (Connection.owesKey key) +
        connections.countP (Connection.isUnchecked key) ≤
          connections.countP (Connection.hasKey key) := by
    intro connections hspec
    induction connections with
    | nil => exact le_rfl
    | cons c connections ih =>
      have hrest := ih fun c hc => hspec c (List.mem_cons_of_mem _ hc)
      have hdisjoint := (hspec c List.mem_cons_self).not_unchecked_of_owes key
      have hc : (c.owesKey key).toNat + (c.isUnchecked key).toNat ≤ (c.hasKey key).toNat := by
        unfold Connection.owesKey Connection.isUnchecked at hdisjoint ⊢
        cases hk : c.hasKey key with
        | false => simp
        | true =>
          rw [hk] at hdisjoint
          by_cases hdebt : c.debt = .nothing <;> simp [hdebt] at hdisjoint ⊢
          · exact Bool.toNat_le _
          · simp [hdisjoint]
      rw [List.countP_cons, List.countP_cons, List.countP_cons, ite_eq_toNat, ite_eq_toNat,
        ite_eq_toNat]
      omega
  have hopen := hle s.connections h
  unfold Server.owing Server.unchecked Server.pastBanCheck
  omega

/--
**A ban locks out new connections.** Once a failure has started a ban of its key, for the
duration of the ban nobody of that key passes the ban check, and credentials are checked only for
connections that were past it already, once for each. So when no ban of the key started between
`s₀` and the trigger, its clients get at most `max_failures` guesses from `s₀` on, apart from
failures that do not count, and a check for each connection past the ban check.
-/
theorem ban_locks_out_new_connections (config : ServerConfig) (start : Nat)
    (hmax : config.ban.maxFailures ≠ 0) (es₀ es es₂ : List (Nat × ServerEvent))
    (e : Nat × ServerEvent) (s₀ s s₁ s₂ : Server)
    (h₀ : run Server.step (.new config start) es₀ = some s₀)
    (h : run Server.step s₀ es = some s) (before : List ServerLog)
    (hbefore : s.log = s₀.log ++ before) (htrigger : s.step e = some s₁) (ip : IpAddr) (t0 : Nat)
    (hlog : s₁.log = s.log ++ [.failureRecorded ip .banned t0, .banTriggered ip t0])
    (h₂ : run Server.step s₁ es₂ = some s₂) (hnow : s₂.now < t0 + config.ban.duration) :
    ∃ later, LockedOut (banKey ip) s₁ s₂ later ∧
      (∀ c ∈ s₂.connections, c.world.log.countP ConnLog.isVerified ≤ 1) ∧
      ((∀ ip' t, .banTriggered ip' t ∈ before → banKey ip' ≠ banKey ip) →
        before.countP (ServerLog.isGuessOf (banKey ip)) +
            later.countP (ServerLog.isCheckOf (banKey ip)) ≤
          config.ban.maxFailures.toNat +
            before.countP (ServerLog.isUncountedOf config.ban (banKey ip) s₁.now) +
            s₁.pastBanCheck (banKey ip)) := by
  -- all four states are reachable
  have hs := run_append.mpr ⟨s₀, h₀, h⟩
  have hs₁ := run_concat.mpr ⟨s, hs, htrigger⟩
  have hs₂ := run_append.mpr ⟨s₁, hs₁, h₂⟩
  have hshape := tableShape_of_run hs
  obtain ⟨ht, hheld⟩ := holds_of_trigger hshape.config_eq htrigger hlog
  obtain ⟨-, later, hlater, hlocked⟩ := holds_of_run ht hheld h₂
  obtain ⟨later', hkey₂⟩ := keyStep_of_run (banKey ip) hs₁ h₂
  obtain rfl := List.append_cancel_left (hlater.symm.trans hkey₂.log)
  have hout := hkey₂.lockedOut (hlocked hnow).2
  refine ⟨later, hout, fun c hc => (inSpec_of_run hs₂ c hc).verified_le_one, ?_⟩
  intro hnone
  -- guesses are recorded or owed, and of those recorded fewer than `max_failures` count
  obtain ⟨before', hkey⟩ := keyStep_of_run (banKey ip) h₀ h
  obtain rfl := List.append_cancel_left (hbefore.symm.trans hkey.log)
  have hstep : s.now ≤ s₁.now := (bans_of_step htrigger).1
  obtain ⟨-, before', hlog', hstored⟩ :=
    stored_of_run (banKey ip) (tableShape_of_run h₀).config_eq h hstep
  obtain rfl := List.append_cancel_left (hbefore.symm.trans hlog')
  have hcounted : before.countP (ServerLog.isCountedOf config.ban (banKey ip) s₁.now) ≤
      config.ban.maxFailures.toNat - 1 :=
    (hstored hnone).trans (List.countP_le_length.trans (hshape.length_failures_le _))
  have hguesses := hkey.guesses
  rw [countP_isRecordOf config.ban (banKey ip) s₁.now] at hguesses
  -- the failure that starts the ban is no longer owed
  obtain ⟨entries, hkey₁⟩ := KeyStep.of_step (banKey ip) (inSpec_of_run hs) htrigger
  obtain rfl := List.append_cancel_left (hlog.symm.trans hkey₁.log)
  have howing := hkey₁.guesses
  simp only [List.countP_cons, List.countP_nil, ServerLog.isGuessOf, ServerLog.isRecordOf,
    Bool.false_eq_true, if_false, decide_true, if_true] at howing
  have hpos : 0 < config.ban.maxFailures.toNat :=
    Nat.pos_of_ne_zero fun hzero => hmax (UInt32.toNat_inj.mp hzero)
  have hpast := owing_add_unchecked_le (banKey ip) (inSpec_of_run hs₁)
  have hchecks := hout.checks
  omega

/-! ## Two connections of one client -/

/-- What connection `i` does until its password, a single byte, has been read. -/
def readCredentials (i : Nat) (password : UInt8) : List (Nat × ServerEvent) :=
  [.received [5], .received [1], .received [2], .sent [5, 2], .received [1], .received [1],
    .received [97], .received [1], .received [password]].map fun event =>
      (10, .connection i event 10)

/-- Both are open when the first one fails. -/
def openedBeforeBan : List (Nat × ServerEvent) :=
  let client := Ipv4Addr.new 203 0 113 5
  [(0, .accept (.v4 client 40000) 0), (0, .tryAcquire), (1, .accept (.v4 client 40001) 1),
      (1, .tryAcquire)] ++
    readCredentials 0 99 ++
    [(11, .connection 0 (.returned (.verify [97] [99]) none) 11),
      (12, .connection 0 (.returned .incrementAuthFailures ()) 12)]

/-- Its failure starts a ban. -/
def startsBan : Nat × ServerEvent :=
  (20, .connection 0 (.returned (.recordFailure (.v4 (.new 203 0 113 5))) .banned) 20)

/-- The second one logs in and is told so. -/
def logsInAfterBan : List (Nat × ServerEvent) :=
  (readCredentials 1 98).map (fun e => (21, e.2)) ++
    [(22, .connection 1 (.returned (.verify [97] [98]) (some "a")) 22),
      (23, .connection 1 (.returned (.setUser "a") ()) 23), (24, .connection 1 (.sent [1, 0]) 24)]

/-- What an observer sees before the ban. -/
def openedBeforeBanLog : List ServerLog :=
  let client := Ipv4Addr.new 203 0 113 5
  [.passed (.v4 client 40000), .accepted (.v4 client 40000) (.admitted ⟨1, .v4 client 40000⟩ ⟨1⟩),
    .passed (.v4 client 40001), .accepted (.v4 client 40001) (.admitted ⟨2, .v4 client 40001⟩ ⟨1⟩),
    .verified ⟨1, .v4 client 40000⟩ none 11]

/-- The client has been told that its credentials are right. -/
def Connection.toldSuccess (c : Connection) : Bool :=
  (MethodSelection.encode { method := methodUserPass } ++
    UserPassResponse.success.encode).isPrefixOf c.world.written

/-- The second connection is open, and its client has been told that it may go on. -/
def Server.toldSecond (s : Server) : Bool :=
  s.connections.any fun c =>
    decide (c.context = ⟨2, .v4 (.new 203 0 113 5) 40001⟩) && c.toldSuccess

theorem exists_run_openedBeforeBan :
    ∃ s s₁ s₂, run Server.step (.new smallConfig 0) openedBeforeBan = some s ∧
      s.log = openedBeforeBanLog ∧ s.step startsBan = some s₁ ∧
      s₁.log = s.log ++ [.failureRecorded (.v4 (.new 203 0 113 5)) .banned 20,
        .banTriggered (.v4 (.new 203 0 113 5)) 20] ∧
      run Server.step s₁ logsInAfterBan = some s₂ ∧
      s₂.log = s₁.log ++ [.verified ⟨2, .v4 (.new 203 0 113 5) 40001⟩ (some "a") 22] ∧
      s₂.now = 24 ∧ s₂.toldSecond = true := by
  have hrun : (run Server.step (.new smallConfig 0) openedBeforeBan).bind (fun s =>
      (s.step startsBan).bind fun s₁ => (run Server.step s₁ logsInAfterBan).map fun s₂ =>
        (s.log, s₁.log, s₂.log, s₂.now, s₂.toldSecond)) =
      some (openedBeforeBanLog,
        openedBeforeBanLog ++ [.failureRecorded (.v4 (.new 203 0 113 5)) .banned 20,
          .banTriggered (.v4 (.new 203 0 113 5)) 20],
        openedBeforeBanLog ++ [.failureRecorded (.v4 (.new 203 0 113 5)) .banned 20,
          .banTriggered (.v4 (.new 203 0 113 5)) 20] ++
            [.verified ⟨2, .v4 (.new 203 0 113 5) 40001⟩ (some "a") 22], 24, true) := by
    decide +kernel
  obtain ⟨s, hs, hrest⟩ := Option.bind_eq_some_iff.mp hrun
  obtain ⟨s₁, hs₁, hrest⟩ := Option.bind_eq_some_iff.mp hrest
  obtain ⟨s₂, hs₂, hobs⟩ := Option.map_eq_some_iff.mp hrest
  simp only [Prod.mk.injEq] at hobs
  obtain ⟨hlog, hlog₁, hlog₂, hnow, htold⟩ := hobs
  refine ⟨s, s₁, s₂, hs, hlog, hs₁, ?_, hs₂, ?_, hnow, htold⟩
  · rw [hlog₁, hlog]
  · rw [hlog₂, hlog₁]

/-- The check after the ban is the one of the second connection, and the last. -/
theorem ban_locks_out_new_connections_second_client :
    ∃ s s₁ s₂, run Server.step (.new smallConfig 0) openedBeforeBan = some s ∧
      s.step startsBan = some s₁ ∧ run Server.step s₁ logsInAfterBan = some s₂ ∧
      ∃ later, LockedOut (.v4 (.new 203 0 113 5)) s₁ s₂ later ∧
        openedBeforeBanLog.countP (ServerLog.isGuessOf (.v4 (.new 203 0 113 5))) +
            later.countP (ServerLog.isCheckOf (.v4 (.new 203 0 113 5))) ≤
          1 + s₁.pastBanCheck (.v4 (.new 203 0 113 5)) := by
  obtain ⟨s, s₁, s₂, hs, hlog, hs₁, hlog₁, hs₂, -, hnow, -⟩ := exists_run_openedBeforeBan
  obtain ⟨later, hout, -, hbound⟩ := ban_locks_out_new_connections smallConfig 0 (by decide) []
    openedBeforeBan logsInAfterBan startsBan (.new smallConfig 0) s s₁ s₂ rfl hs
    openedBeforeBanLog hlog hs₁ _ 20 hlog₁ hs₂ (by rw [hnow]; decide)
  refine ⟨s, s₁, s₂, hs, hs₁, hs₂, later, hout, ?_⟩
  -- no failure has been recorded before the one that starts the ban
  have hnone : ∀ limit, openedBeforeBanLog.countP
      (ServerLog.isUncountedOf smallConfig.ban (.v4 (.new 203 0 113 5)) limit) = 0 :=
    fun limit => rfl
  have hguesses := hbound (by simp [openedBeforeBanLog])
  simp only [show banKey (.v4 (.new 203 0 113 5)) = .v4 (.new 203 0 113 5) from rfl] at hguesses
  rw [hnone] at hguesses
  exact hguesses

/--
A connection that was open before the ban has its credentials checked two nanoseconds after
it, and the client is told that they are right.
-/
theorem open_connection_survives_ban :
    ¬ ∀ (config : ServerConfig) (start : Nat) (es : List (Nat × ServerEvent)) (s : Server),
      config.ban.maxFailures ≠ 0 → run Server.step (.new config start) es = some s →
      ∀ before ip t0 mid context user t after,
        s.log = before ++ .banTriggered ip t0 :: mid ++ .verified context (some user) t :: after →
        banKey context.peer.ip = banKey ip → t0 ≤ t → t < t0 + config.ban.duration →
        ∀ c ∈ s.connections, c.context = context → c.toldSuccess = false := by
  intro h
  obtain ⟨s, s₁, s₂, hs, -, hs₁, hlog₁, hs₂, hlog₂, -, htold⟩ := exists_run_openedBeforeBan
  obtain ⟨c, hc, hsecond⟩ := List.any_eq_true.mp htold
  rw [Bool.and_eq_true, decide_eq_true_eq] at hsecond
  have hrun := run_append.mpr ⟨s₁, run_concat.mpr ⟨s, hs, hs₁⟩, hs₂⟩
  have hlog : s₂.log = (s.log ++ [.failureRecorded (.v4 (.new 203 0 113 5)) .banned 20]) ++
      .banTriggered (.v4 (.new 203 0 113 5)) 20 :: [] ++
        .verified ⟨2, .v4 (.new 203 0 113 5) 40001⟩ (some "a") 22 :: [] := by
    rw [hlog₂, hlog₁]
    simp
  have hsilent := h smallConfig 0 _ s₂ (by decide) hrun _ _ 20 [] _ "a" 22 [] hlog rfl
    (by decide) (by decide) c hc hsecond.1
  rw [hsecond.2] at hsilent
  cases hsilent

end SocksServer
