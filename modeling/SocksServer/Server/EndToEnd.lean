import SocksServer.Relay.Integrity
import SocksServer.Server.ClosedLine

/-!
# From the client to the target and back

What the handshake leaves unread belongs to the relay, and what it has written comes before
anything the target sends. So the server is transparent: a target gets what its client sent
after the request, the client gets the answers of the protocol and then what its target sent.

* `Relaying` — what has been read and written by the time the relay starts
* `AnswerRight` — a connection ends for a reason of the relay only if the relay has ended so
* `Entered` — which streams the peers of a relay have sent
* `end_to_end` — the sockets of every connection, and the byte counts of its line
-/

namespace SocksServer

open Infra

/-! ## A relay in the states of a connection -/

/-- The relay has started: what the handshake has read and written. -/
structure Relaying (w : ConnWorld) : Prop where
  request : ∃ requested, w.report.target = some requested ∧ RequestRead w.consumed requested
  written : w.written = [0x05, 0x02, 0x01, 0x00] ++ replyBytes 0x00

section States

variable {peer : SocketAddr} {settled : Bool} {w : ConnWorld} {result : RelayEnd}

/-- **The relay starts after the handshake**, and nothing is read or written in between. -/
theorem ConnAt.relaying_of_relays (h : ConnAt peer settled w) (hrelays : w.relays = true) :
    Relaying w := by
  cases h with
  | relaying addr hread => exact ⟨⟨_, rfl, hread⟩, rfl⟩
  | _ => cases show false = true from hrelays

theorem ConnEnds.relaying_of_relays {reason : CloseReason} (h : ConnEnds peer reason w)
    (hrelays : w.relays = true) : Relaying w := by
  cases h with
  | cut hat => exact hat.relaying_of_relays hrelays
  | relayed addr result hread => exact ⟨⟨_, rfl, hread⟩, rfl⟩

/-- A connection has ended when its relay has. -/
theorem ConnAt.not_relayEnded (h : ConnAt peer settled w) : .relayEnded result ∉ w.log := by
  cases h <;> simp

/-- **The relay decides** about the reasons that bear its name. -/
theorem ConnEnds.relayEnded (h : ConnEnds peer (.ofRelayEnd result) w) :
    .relayEnded result ∈ w.log := by
  generalize hreason : CloseReason.ofRelayEnd result = reason at h
  cases h with
  | cut _ _ _ hrelay =>
    rw [← hreason, CloseReason.relayEnd?_ofRelayEnd] at hrelay
    cases hrelay
  | relayed addr result' =>
    obtain rfl : result = result' := by simpa using congrArg CloseReason.relayEnd? hreason
    simp

end States

/-! ## The sockets of a connection -/

namespace Connection

/-- All that the client's socket has delivered. -/
def fromClient (c : Connection) : Bytes := c.world.consumed ++ c.relay.elim [] (·.upload.received)

/-- All that the client's socket has accepted. -/
def toClient (c : Connection) : Bytes := c.world.written ++ c.relay.elim [] (·.download.accepted)

def fromTarget (c : Connection) : Bytes := c.relay.elim [] (·.download.received)

def toTarget (c : Connection) : Bytes := c.relay.elim [] (·.upload.accepted)

end Connection

/-- What the client is told before its target is heard. -/
def successAnswers : Bytes := [0x05, 0x02, 0x01, 0x00] ++ replyBytes 0x00

/-- The sockets of a relaying connection, for what its client and its target send. -/
structure Transparent (c : Connection) (client target : Bytes) : Prop where
  /-- The handshake takes its messages from the client, and no byte of what follows. -/
  upload : ∃ handshake requested sent, RequestRead handshake requested ∧
    c.world.report.target = some requested ∧ c.fromClient = handshake ++ sent ∧
    sent <+: client ∧ c.toTarget <+: sent
  download : c.fromTarget <+: target ∧
    ∃ passed, passed <+: c.fromTarget ∧ c.toClient = successAnswers ++ passed
  counters : c.counters = ⟨min u64Max c.toTarget.length,
    min u64Max (c.toClient.length - successAnswers.length)⟩
  /-- Nothing is lost in a connection that ends as `completed`. -/
  completed : c.task = .done .completed →
    c.toTarget = client ∧ c.toClient = successAnswers ++ target

/-- What the two peers of a relay send. -/
def peerStreams (client target : Bytes × Bool) : Side → Bytes
  | .upload => client.1
  | .download => target.1

theorem RelayState.Intact.accepted_of_completed {stream : Side → Bytes} {relay : RelayState}
    (h : relay.Intact stream) (hstatus : relay.status = .ended .completed) (side : Side) :
    (relay.direction side).accepted = stream side := by
  have hp := h.done side (h.completed hstatus side)
  have hclosed := h.directions side
  rw [Direction.Intact, hp] at hclosed
  exact hclosed.accepted_eq

theorem transparent_of_intact {c : Connection} {relay : RelayState} {client target : Bytes × Bool}
    (hworld : Relaying c.world) (hrelay : c.relay = some relay)
    (hintact : relay.Intact (peerStreams client target))
    (hanswer : c.task = .done .completed → relay.status = .ended .completed) :
    Transparent c client.1 target.1 := by
  obtain ⟨requested, hreport, hread⟩ := hworld.request
  have hup : StreamIntact client.1 relay.upload := (hintact.directions .upload).streamIntact
  have hdown : StreamIntact target.1 relay.download := (hintact.directions .download).streamIntact
  have hto : c.toTarget = relay.upload.accepted := by simp [Connection.toTarget, hrelay]
  have hfrom : c.fromTarget = relay.download.received := by simp [Connection.fromTarget, hrelay]
  have hclient : c.toClient = successAnswers ++ relay.download.accepted := by
    simp [Connection.toClient, hrelay, hworld.written, successAnswers]
  refine ⟨⟨c.world.consumed, requested, relay.upload.received, hread, hreport, ?_,
    hup.received_stream, ?_⟩, ⟨?_, relay.download.accepted, ?_, hclient⟩, ?_, ?_⟩
  · simp [Connection.fromClient, hrelay]
  · rw [hto]
    exact hup.accepted_received
  · rw [hfrom]
    exact hdown.received_stream
  · rw [hfrom]
    exact hdown.accepted_received
  · have hlength : c.toClient.length - successAnswers.length = relay.download.accepted.length := by
      rw [hclient, List.length_append, Nat.add_sub_cancel_left]
    rw [hlength, hto, ← hup.counter, ← hdown.counter]
    simp [Connection.counters, hrelay, RelayState.counters]
  · intro hdone
    have hstatus := hanswer hdone
    rw [hto, hclient]
    exact ⟨hintact.accepted_of_completed hstatus .upload,
      congrArg _ (hintact.accepted_of_completed hstatus .download)⟩

/-! ## The relay of a connection -/

/-- The relay has ended as the task has been told. -/
def AnswerRight (c : Connection) : Prop :=
  ∀ result, .relayEnded result ∈ c.world.log →
    ∃ relay, c.relay = some relay ∧ relay.status = .ended result

section AnswerRight

variable {config : ServerConfig} {users : UserStore} {c c' : Connection}
variable {event : Task.Event ConnSig}

theorem Connection.InSpec.relaying (h : c.InSpec users) (hrelays : c.world.relays = true) :
    Relaying c.world := by
  rcases h.cases with ⟨reason, -, hends⟩ | hat
  · exact hends.relaying_of_relays hrelays
  · exact hat.relaying_of_relays hrelays

/-- A task that moves has not heard of the end of its relay. -/
theorem Connection.InSpec.not_relayEnded (h : c.InSpec users) {task : Task ConnSig CloseReason}
    (hstep : c.task.step event = some task) {result : RelayEnd} :
    .relayEnded result ∉ c.world.log := by
  rcases h.cases with ⟨reason, hdone, -⟩ | hat
  · rw [hdone] at hstep
    cases event <;> simp [Task.step] at hstep
  · exact hat.not_relayEnded

/-- Only the relay answers for the relay. -/
theorem AnswerRight.step (hspec : c.InSpec users)
    (hstep : (connWorld users).step (c.task, c.world) event = some (c'.task, c'.world))
    (hanswer : ∀ result, event = .answered .relay result →
      ∃ relay, c'.relay = some relay ∧ relay.status = .ended result) : AnswerRight c' := by
  obtain ⟨htask, entries, hlog, hrecords⟩ := records_of_step hstep
  intro result hmem
  rw [hlog] at hmem
  rcases List.mem_append.mp hmem with hmem | hmem
  · exact absurd hmem (hspec.not_relayEnded htask)
  · cases hrecords with
    | relayEnded result' =>
      obtain rfl : result = result' := by simpa using hmem
      exact hanswer result rfl
    | _ => simp at hmem

/-- **A connection cannot make up the end of its relay.** -/
theorem kept_answerRight (config : ServerConfig) :
    Kept config fun _ c => c.InSpec config.users ∧ AnswerRight c where
  later _ h := h
  new log peer id hallowed hcanonical :=
    ⟨(kept_inSpec config).new log peer id hallowed hcanonical,
      by simp [AnswerRight, Connection.new, ConnWorld.new]⟩
  task := by
    rintro s c c₁ c₂ event stamp ⟨hspec, -⟩ hmay hrelay hstep
    refine ⟨(kept_inSpec config).task stamp hspec hmay hrelay hstep,
      .step hspec (Connection.step_after_relayStep hrelay hstep) ?_⟩
    rintro result rfl
    unfold Connection.relayStep at hrelay
    dsimp only at hrelay
    split at hrelay
    · next hended =>
      obtain rfl := Option.some.inj hrelay
      rw [(Connection.step_eq hstep).2.1]
      cases hc : c.relay with
      | none => simp [hc] at hended
      | some relay => exact ⟨relay, rfl, by simpa [hc] using hended⟩
    · cases hrelay
  relayTcp := by
    rintro log c c' now client target ⟨hspec, -⟩ hstep
    have hkeep := @(kept_inSpec config).relayTcp log
    refine ⟨hkeep now client target hspec hstep, .step hspec (Connection.step_eq hstep).1 ?_⟩
    rintro result ⟨⟩
  pump := by
    rintro log c relay relay' side now outcome ⟨hspec, hanswer⟩ hrelay hstep
    refine ⟨hspec, ?_⟩
    intro result hmem
    obtain ⟨relay₀, hrelay₀, hended⟩ := hanswer result hmem
    -- a relay that has ended does not move
    obtain rfl : relay = relay₀ := Option.some.inj (hrelay.symm.trans hrelay₀)
    rw [(RelayState.step_cases hstep).1] at hended
    cases hended

end AnswerRight

/-! ## Every run -/

/-- The relay of a connection was entered with these peers. -/
def Entered (config : ServerConfig) (start : Nat) (es : List (Nat × ServerEvent))
    (context : ConnectionContext) (client target : Bytes × Bool) : Prop :=
  ∃ before after now i s c, es = before ++ (now, .relayTcp i client target) :: after ∧
    run Server.step (.new config start) before = some s ∧ s.connections[i]? = some c ∧
    c.context = context

/-- The line of a finished connection, for what its peers have sent. -/
def LineCounts (config : ServerConfig) (start : Nat) (es : List (Nat × ServerEvent))
    (context : ConnectionContext) (reason : CloseReason) (counters : RelayCounters) : Prop :=
  (∀ result, reason ≠ .ofRelayEnd result) ∧ counters = ⟨0, 0⟩ ∨
    ∃ client target, Entered config start es context client target ∧
      counters.clientToTarget ≤ client.1.length ∧ counters.targetToClient ≤ target.1.length ∧
      (reason = .completed →
        counters = ⟨min u64Max client.1.length, min u64Max target.1.length⟩)

section Run

variable {config : ServerConfig} {start : Nat} {es : List (Nat × ServerEvent)} {s s' : Server}
variable {e : Nat × ServerEvent} {client target : Bytes × Bool}

theorem Entered.concat {context : ConnectionContext}
    (h : Entered config start es context client target) :
    Entered config start (es ++ [e]) context client target := by
  obtain ⟨before, after, now, i, s, c, rfl, hrest⟩ := h
  exact ⟨before, after ++ [e], now, i, s, c, by simp, hrest⟩

theorem LineCounts.concat {context : ConnectionContext} {reason : CloseReason}
    {counters : RelayCounters} (h : LineCounts config start es context reason counters) :
    LineCounts config start (es ++ [e]) context reason counters := by
  rcases h with h | ⟨client, target, hentered, h⟩
  · exact .inl h
  · exact .inr ⟨client, target, hentered.concat, h⟩

/-- The streams of a relay are those its peers send. -/
def HasStreams (config : ServerConfig) (start : Nat) (es : List (Nat × ServerEvent))
    (c : Connection) : Prop :=
  ∀ relay, c.relay = some relay → ∃ client target,
    Entered config start es c.context client target ∧ relay.Intact (peerStreams client target)

theorem HasStreams.concat {c : Connection} (h : HasStreams config start es c) :
    HasStreams config start (es ++ [e]) c := by
  intro relay hrelay
  obtain ⟨client, target, hentered, hintact⟩ := h relay hrelay
  exact ⟨client, target, hentered.concat, hintact⟩

/-- A relay that goes on with the same streams. -/
theorem HasStreams.of_relay {c c' : Connection} (h : HasStreams config start es c)
    (hcontext : c'.context = c.context)
    (hrelay : ∀ relay', c'.relay = some relay' → ∃ relay, c.relay = some relay ∧
      ∀ stream, relay.Intact stream → relay'.Intact stream) : HasStreams config start es c' := by
  intro relay' hrelay'
  obtain ⟨relay, hsome, hkeep⟩ := hrelay relay' hrelay'
  obtain ⟨client, target, hentered, hintact⟩ := h relay hsome
  rw [hcontext]
  exact ⟨client, target, hentered, hkeep _ hintact⟩

/-- The relay of a connection goes on, or is dropped. -/
theorem relayStep_keeps {c c' : Connection} {event : Task.Event ConnSig}
    (h : c.relayStep event = some c') {relay' : RelayState} (hrelay : c'.relay = some relay') :
    ∃ relay, c.relay = some relay ∧ ∀ stream, relay.Intact stream → relay'.Intact stream := by
  unfold Connection.relayStep at h
  split at h
  · split at h
    · obtain rfl := Option.some.inj h
      exact ⟨relay', hrelay, fun _ h => h⟩
    · cases h
  · rw [← Option.some.inj h] at hrelay
    obtain ⟨relay, hsome, rfl⟩ := Option.map_eq_some_iff.mp hrelay
    refine ⟨relay, hsome, ?_⟩
    intro stream hintact
    cases hdrop : relay.step .drop with
    | none => exact hintact
    | some dropped => exact hintact.step hdrop
  · cases h
  · obtain rfl := Option.some.inj h
    exact ⟨relay', hrelay, fun _ h => h⟩

/-- **One step and the streams of every connection.** -/
theorem hasStreams_step (hrun : run Server.step (.new config start) es = some s)
    (hs : ∀ c ∈ s.connections, HasStreams config start es c) (he : s.step e = some s') :
    ∀ c ∈ s'.connections, HasStreams config start (es ++ [e]) c := by
  have hlater : ∀ c ∈ s.connections, HasStreams config start (es ++ [e]) c :=
    fun c hc => (hs c hc).concat
  -- only connection `i` changes
  have hset : ∀ (i : Nat) (c' : Connection), HasStreams config start (es ++ [e]) c' →
      ∀ c ∈ s.connections.set i c', HasStreams config start (es ++ [e]) c := by
    intro i c' hc' c hc
    rcases List.mem_or_eq_of_mem_set hc with hc | rfl
    · exact hlater c hc
    · exact hc'
  obtain ⟨now, event⟩ := e
  obtain ⟨-, hmove⟩ := move_of_step he
  cases hmove with
  | run hrun' =>
    rw [hrun'.frame.1]
    exact hlater
  | admitted =>
    intro c hc
    rcases List.mem_append.mp hc with hc | hc
    · exact hlater c hc
    · -- a connection that is new has no relay
      rw [List.mem_singleton.mp hc]
      rintro relay ⟨⟩
  | @task i event stamp c c₁ c₂ _ _ hc hmay hstate hrelay hstep =>
    refine hset i c₂ ((hlater c (List.mem_of_getElem? hc)).of_relay ?_ ?_)
    · exact (Connection.context_of_task hrelay hstep).1
    · intro relay' hrelay'
      rw [(Connection.step_eq hstep).2.1] at hrelay'
      exact relayStep_keeps hrelay hrelay'
  | @relayTcp i client target c c' hc hstep =>
    refine hset i _ ?_
    rintro relay ⟨⟩
    exact ⟨client, target, ⟨es, [], now, i, s, c, rfl, hrun, hc,
      (Connection.step_context hstep).1.symm⟩,
      RelayState.intact_new _ _ (peerStreams client target) fun
        | .upload => client.2
        | .download => target.2⟩
  | @pump i side outcome c relay relay' hc hrelay hstep =>
    refine hset i _ ((hlater c (List.mem_of_getElem? hc)).of_relay rfl ?_)
    rintro _ ⟨⟩
    exact ⟨relay, hrelay, fun _ hintact => hintact.step hstep⟩
  | finish i hc htask => exact fun c hc => hlater c (List.mem_of_mem_eraseIdx hc)

/-- What the reason of a finished connection says about its relay. -/
theorem ended_of_run (hrun : run Server.step (.new config start) es = some s) {c : Connection}
    (hc : c ∈ s.connections) {result : RelayEnd} (hdone : c.task = .done (.ofRelayEnd result)) :
    ∃ relay, c.relay = some relay ∧ relay.status = .ended result := by
  obtain ⟨hspec, hanswer⟩ := (kept_answerRight config).of_run hrun c hc
  exact hanswer result (hspec.ends hdone).relayEnded

/-- A connection with a relay, wherever it stands. -/
theorem transparent_of_run (hrun : run Server.step (.new config start) es = some s)
    {c : Connection} (hc : c ∈ s.connections) {relay : RelayState} (hrelay : c.relay = some relay)
    (hintact : relay.Intact (peerStreams client target)) :
    Transparent c client.1 target.1 := by
  refine transparent_of_intact ?_ hrelay hintact ?_
  · have hrelays : c.world.relays = true := by
      by_contra hnot
      have hnone := (kept_noRelay config).of_run hrun c hc (by simpa using hnot)
      rw [hrelay] at hnone
      cases hnone
    exact ((kept_inSpec config).of_run hrun c hc).relaying hrelays
  · intro hdone
    obtain ⟨relay', hrelay', hstatus⟩ := ended_of_run hrun hc
      (show c.task = .done (.ofRelayEnd .completed) from hdone)
    obtain rfl : relay = relay' := Option.some.inj (hrelay.symm.trans hrelay')
    exact hstatus

/-- The line of a connection that is finished now. -/
theorem lineCounts_of_done (hrun : run Server.step (.new config start) es = some s)
    {c : Connection} (hc : c ∈ s.connections) (hstreams : HasStreams config start es c)
    {reason : CloseReason} (hdone : c.task = .done reason) :
    LineCounts config start es c.context reason c.counters := by
  cases hrelay : c.relay with
  | none =>
    refine .inl ⟨?_, by simp [Connection.counters, hrelay]⟩
    rintro result rfl
    obtain ⟨relay, hsome, -⟩ := ended_of_run hrun hc hdone
    rw [hrelay] at hsome
    cases hsome
  | some relay =>
    obtain ⟨client, target, hentered, hintact⟩ := hstreams relay hrelay
    have h := transparent_of_run hrun hc hrelay hintact
    obtain ⟨-, -, sent, -, -, -, hsent, hto⟩ := h.upload
    obtain ⟨hfrom, passed, hpassed, hclient⟩ := h.download
    have hlength : c.toClient.length - successAnswers.length = passed.length := by
      rw [hclient, List.length_append, Nat.add_sub_cancel_left]
    have hcounters := h.counters
    rw [hlength] at hcounters
    refine .inr ⟨client, target, hentered, ?_, ?_, ?_⟩
    · rw [hcounters]
      exact (min_le_right _ _).trans (hto.trans hsent).length_le
    · rw [hcounters]
      exact (min_le_right _ _).trans (hpassed.trans hfrom).length_le
    · rintro rfl
      obtain ⟨hupload, hdownload⟩ := h.completed hdone
      rw [hclient] at hdownload
      rw [hcounters, hupload, List.append_cancel_left hdownload]

/-- **One step and the lines of the finished connections.** -/
theorem lines_step (hrun : run Server.step (.new config start) es = some s)
    (hs : ∀ c ∈ s.connections, HasStreams config start es c)
    (hlog : ∀ context reason counters, ServerLog.finished context reason counters ∈ s.log →
      LineCounts config start es context reason counters) (he : s.step e = some s') :
    ∀ context reason counters, ServerLog.finished context reason counters ∈ s'.log →
      LineCounts config start (es ++ [e]) context reason counters := by
  -- all but `finish` add entries of other kinds
  have hmore : ∀ entries : List ServerLog, s'.log = s.log ++ entries →
      (∀ context reason counters, ServerLog.finished context reason counters ∉ entries) →
      ∀ context reason counters, ServerLog.finished context reason counters ∈ s'.log →
        LineCounts config start (es ++ [e]) context reason counters := by
    intro entries heq hnot context reason counters hmem
    rw [heq] at hmem
    rcases List.mem_append.mp hmem with hmem | hmem
    · exact (hlog context reason counters hmem).concat
    · exact absurd hmem (hnot context reason counters)
  obtain ⟨now, event⟩ := e
  obtain ⟨-, hmove⟩ := move_of_step he
  cases hmove with
  | run hrun' =>
    obtain ⟨-, -, -, entries, hentries, hofLoop⟩ := hrun'.frame
    exact hmore entries hentries fun _ _ _ hmem => hofLoop _ hmem
  | admitted => exact hmore _ rfl (by simp)
  | @task i event stamp c c₁ c₂ _ _ hc hmay hstate hrelay hstep =>
    refine hmore _ rfl ?_
    intro context reason counters hmem
    unfold Server.observe at hmem
    split at hmem
    · simp at hmem
    · split at hmem <;> simp at hmem
    · simp at hmem
  | relayTcp i client target hc hstep => exact hmore [] (by simp [Server.setConnection]) (by simp)
  | pump i side outcome hc hrelay hstep => exact hmore [] (by simp [Server.setConnection]) (by simp)
  | @finish i c reason hc htask =>
    intro context reason' counters hmem
    rcases List.mem_append.mp hmem with hmem | hmem
    · exact (hlog context reason' counters hmem).concat
    · rw [List.mem_singleton] at hmem
      obtain ⟨rfl, rfl, rfl⟩ := ServerLog.finished.inj hmem
      have hmem := List.mem_of_getElem? hc
      exact (lineCounts_of_done hrun hmem (hs c hmem) htask).concat

end Run

/--
**From end to end.** In every reachable state of the server and for every connection whose relay
was entered: what was read from the client is a greeting, credentials and the request for its
target, and after that a part of what the client has sent; the target has got a part of that
from its start. The client has got the answers of the protocol and then a part of what its
target has sent. The counters are the lengths of what was delivered, and the line of a connection
that ended as `completed` counts both streams as a whole.
-/
theorem end_to_end (config : ServerConfig) (start : Nat) (es : List (Nat × ServerEvent))
    (s : Server) (h : run Server.step (.new config start) es = some s) :
    (∀ c ∈ s.connections, c.relay ≠ none → ∃ client target,
      Entered config start es c.context client target ∧ Transparent c client.1 target.1) ∧
    ∀ context reason counters, .finished context reason counters ∈ s.log →
      LineCounts config start es context reason counters := by
  have hinv : run Server.step (.new config start) es = some s ∧
      (∀ c ∈ s.connections, HasStreams config start es c) ∧
      ∀ context reason counters, ServerLog.finished context reason counters ∈ s.log →
        LineCounts config start es context reason counters := by
    refine run_history (I := fun es s => run Server.step (.new config start) es = some s ∧
      (∀ c ∈ s.connections, HasStreams config start es c) ∧
      ∀ context reason counters, ServerLog.finished context reason counters ∈ s.log →
        LineCounts config start es context reason counters) ⟨rfl, by simp [Server.new],
      by simp [Server.new]⟩ ?_ h
    rintro es s e s' ⟨hrun, hstreams, hlog⟩ he
    exact ⟨run_concat.mpr ⟨s, hrun, he⟩, hasStreams_step hrun hstreams he,
      lines_step hrun hstreams hlog he⟩
  obtain ⟨-, hstreams, hlog⟩ := hinv
  refine ⟨?_, hlog⟩
  intro c hc hrelay
  obtain ⟨relay, hrelay⟩ := Option.ne_none_iff_exists'.mp hrelay
  obtain ⟨client, target, hentered, hintact⟩ := hstreams c hc relay hrelay
  exact ⟨client, target, hentered, transparent_of_run h hc hrelay hintact⟩

/-- A client that sends two bytes, a target that answers with three, and both close. -/
theorem end_to_end_exchange :
    let context : ConnectionContext := ⟨1, .v4 (.new 203 0 113 5) 40000⟩
    ∃ es s, run Server.step (.new smallConfig 0) es = some s ∧
      ServerLog.finished context .completed ⟨2, 3⟩ ∈ s.log ∧
      LineCounts smallConfig 0 es context .completed ⟨2, 3⟩ := by
  intro context
  let addr : SocketAddr := .v4 (.new 8 8 8 8) 53
  let handshake : List (Task.Event ConnSig) :=
    [.received [5], .received [1], .received [2], .sent [5, 2], .received [1], .received [1],
      .received [97], .received [1], .received [98], .returned (.verify [97] [98]) (some "a"),
      .returned (.setUser "a") (), .sent [1, 0], .received [5, 1, 0, 1], .received [8, 8, 8, 8],
      .received [0, 53], .returned (.setTarget (.ip addr)) (),
      .returned (.connectToTarget (.ip addr)) (), .answered (.tcpConnect addr) (.ok ()),
      .returned (.setTargetAddr addr) (), .sent [5, 0, 0, 1, 0, 0, 0, 0, 0, 0]]
  let relay : List ServerEvent :=
    [.relayTcp 0 ([1, 2], true) ([7, 8, 9], true), .pump 0 .upload .polled,
      .pump 0 .download .polled, .pump 0 .upload (.read 2), .pump 0 .upload (.wrote 1),
      .pump 0 .download (.read 3), .pump 0 .download (.wrote 3), .pump 0 .upload (.wrote 1),
      .pump 0 .upload (.read 0), .pump 0 .download (.read 0),
      .pump 0 .download (.shutDown (.ok ())), .pump 0 .upload (.shutDown (.ok ())),
      .connection 0 (.answered .relay .completed) 1, .finish 0]
  let es : List (Nat × ServerEvent) :=
    (0, .accept (.v4 (.new 203 0 113 5) 40000) 0) :: (0, .tryAcquire) ::
      (handshake.map fun event => (1, .connection 0 event 1)) ++ relay.map fun event => (1, event)
  have hrun : (run Server.step (.new smallConfig 0) es).map
      (fun s => decide (ServerLog.finished context .completed ⟨2, 3⟩ ∈ s.log)) = some true := by
    decide +kernel
  obtain ⟨s, hs, hmem⟩ := Option.map_eq_some_iff.mp hrun
  have hmem := of_decide_eq_true hmem
  exact ⟨es, s, hs, hmem, (end_to_end smallConfig 0 es s hs).2 context .completed ⟨2, 3⟩ hmem⟩

end SocksServer
