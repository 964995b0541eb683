import SocksServer.Infra.Text
import SocksServer.Server.Moves

/-!
# The "connection closed" line

`serve_connection` writes one log line when a connection ends: what the report knows by then,
and why it ended. The report is filled in by the way, and a connection can end wherever it
waits, so the reason and the fields of the line come from different places.

* `CloseReason.texts_exact` — what the texts of a line tell
* `ConnEnds.table` — how far a connection has come when it ends for a reason, and what its client
  was told
* `closed_line_table` — the lines of every run of the server
-/

namespace SocksServer

open Infra

/-! ## `close_reason.rs`: texts -/

/-- `{:#04x}` of a byte. -/
def hexByte (value : UInt8) : String :=
  let digit (n : Nat) : Char := "0123456789abcdef".toList.getD n '0'
  "0x" ++ String.ofList [digit (value.toNat / 16), digit (value.toNat % 16)]

def IpClass.asStr : IpClass → String
  | .publicIp => "public"
  | .privateIp => "private"
  | .linkLocal => "link-local"
  | .loopback => "loopback"
  | .reserved => "reserved"

/-- `impl Display for DenyReason` -/
def DenyReason.toText : DenyReason → String
  | .blockedPort port => "port " ++ toString port.toNat ++ " is blocked"
  | .reservedAddress => "reserved address"
  | .internalAddress .privateIp => "private address (allow_internal or internal_whitelist opens it)"
  | .internalAddress cls => cls.asStr ++ " address (only an internal_whitelist entry opens it)"

/-- `impl Display for ProtocolError` -/
def ProtocolError.toText : ProtocolError → String
  | .io error => "i/o error: " ++ error.message
  | .unsupportedVersion version => "unsupported SOCKS version " ++ hexByte version
  | .noMethods => "client offered no authentication methods"
  | .unsupportedAuthVersion version =>
    "unsupported username/password sub-negotiation version " ++ hexByte version
  | .unsupportedAddressType addressType => "unsupported address type " ++ hexByte addressType
  | .invalidDomain => "invalid domain name"
  | .fieldTooLong => "field is longer than 255 bytes"

namespace CloseReason

/-- Stable machine-readable name for logs. -/
def code : CloseReason → String
  | .handshakeTimeout => "handshake_timeout"
  | .handshakeIo _ => "handshake_io_error"
  | .protocol _ => "protocol_error"
  | .noAcceptableAuthMethod => "no_acceptable_auth_method"
  | .authFailed => "auth_failed"
  | .commandNotSupported _ => "command_not_supported"
  | .addressTypeNotSupported _ => "address_type_not_supported"
  | .invalidDomain => "invalid_domain"
  | .deniedByPolicy _ => "denied_by_policy"
  | .resolveFailed _ => "resolve_failed"
  | .resolvedToNothing => "resolved_to_nothing"
  | .connectFailed _ => "connect_failed"
  | .connectTimeout => "connect_timeout"
  | .completed => "completed"
  | .idleTimeout => "idle_timeout"
  | .clientError _ => "client_error"
  | .targetError _ => "target_error"
  | .shutdown => "shutdown"

/-- Error text or refusal detail, if any. -/
def detail : CloseReason → Option String
  | .handshakeIo error => some error.message
  | .resolveFailed error => some error.message
  | .connectFailed error => some error.message
  | .clientError error => some error.message
  | .targetError error => some error.message
  | .protocol error => some error.toText
  | .deniedByPolicy reason => some reason.toText
  | .commandNotSupported command => some ("command " ++ hexByte command.asByte)
  | .addressTypeNotSupported addressType => some ("address type " ++ hexByte addressType)
  | _ => none

end CloseReason

/-! ### What the texts tell -/

/-- Two hexadecimal digits tell the byte. -/
theorem hexByte_inj {a b : UInt8} : hexByte a = hexByte b ↔ a = b := by
  have hdigit : ∀ i : Fin 16, ∀ j : Fin 16,
      "0123456789abcdef".toList.getD i '0' = "0123456789abcdef".toList.getD j '0' → i = j := by
    decide +kernel
  refine ⟨?_, congrArg hexByte⟩
  intro h
  unfold hexByte at h
  rw [String.append_right_inj, String.ofList_inj] at h
  obtain ⟨hhigh, hlow⟩ := List.cons.inj h
  have ha : a.toNat < 256 := a.toNat_lt
  have hb : b.toNat < 256 := b.toNat_lt
  have hhigh := Fin.mk.inj (hdigit ⟨a.toNat / 16, by omega⟩ ⟨b.toNat / 16, by omega⟩ hhigh)
  have hlow := Fin.mk.inj (hdigit ⟨a.toNat % 16, by omega⟩ ⟨b.toNat % 16, by omega⟩
    (List.cons.inj hlow).1)
  apply UInt8.toNat_inj.mp
  omega

/-- A printed number is read back. -/
theorem toString_inj {a b : Nat} : toString a = toString b ↔ a = b := by
  refine ⟨?_, congrArg toString⟩
  intro h
  have hdigits : Nat.toDigits 10 a = Nat.toDigits 10 b := String.ofList_inj.mp h
  have hread := Text.fromDigits_toDigits (by decide : 1 < 10) (by decide) a
  rw [hdigits, Text.fromDigits_toDigits (by decide) (by decide)] at hread
  exact (Option.some.inj hread).symm

theorem toList_prefix_append {start text : String} (h : start.toList <+: text.toList)
    (rest : String) : start.toList <+: (text ++ rest).toList := by
  rw [String.toList_append]
  exact h.trans (List.prefix_append _ _)

/-- The refusals that are about no port. -/
def DenyReason.ofAddress : List DenyReason :=
  .reservedAddress :: ([.publicIp, .privateIp, .linkLocal, .loopback, .reserved].map .internalAddress)

theorem DenyReason.port_or_mem (reason : DenyReason) :
    (∃ port, reason = .blockedPort port) ∨ reason ∈ ofAddress := by
  cases reason with
  | blockedPort port => exact .inl ⟨port, rfl⟩
  | reservedAddress => exact .inr List.mem_cons_self
  | internalAddress cls => cases cls <;> exact .inr (by decide)

/-- The text of a refusal tells all of it. -/
theorem DenyReason.toText_inj {a b : DenyReason} : a.toText = b.toText ↔ a = b := by
  have hport : ∀ port, "po".toList <+: (blockedPort port).toText.toList :=
    fun port => toList_prefix_append (toList_prefix_append (by decide +kernel) _) _
  have hother : ∀ reason ∈ ofAddress, ¬ "po".toList <+: reason.toText.toList := by decide +kernel
  have hnodup : (ofAddress.map toText).Nodup := by decide +kernel
  refine ⟨?_, congrArg toText⟩
  intro h
  rcases a.port_or_mem with ⟨port, rfl⟩ | ha <;> rcases b.port_or_mem with ⟨port', rfl⟩ | hb
  · unfold toText at h
    rw [String.append_left_inj, String.append_right_inj, toString_inj, UInt16.toNat_inj] at h
    rw [h]
  · exact absurd (h ▸ hport port) (hother b hb)
  · exact absurd (h ▸ hport port') (hother a ha)
  · exact List.inj_on_of_nodup_map hnodup ha hb h

/-- How the texts of the errors start. -/
def ProtocolError.starts : List String :=
  ["i/o", "unsupported S", "client", "unsupported u", "unsupported a", "invalid", "field"]

theorem ProtocolError.exists_start (e : ProtocolError) :
    ∃ start, starts[e.ctorIdx]? = some start ∧ start.toList <+: e.toText.toList := by
  cases e with
  | io error => exact ⟨_, rfl, toList_prefix_append (by decide +kernel) _⟩
  | unsupportedVersion version => exact ⟨_, rfl, toList_prefix_append (by decide +kernel) _⟩
  | unsupportedAuthVersion version => exact ⟨_, rfl, toList_prefix_append (by decide +kernel) _⟩
  | unsupportedAddressType addressType =>
    exact ⟨_, rfl, toList_prefix_append (by decide +kernel) _⟩
  | noMethods | invalidDomain | fieldTooLong => exact ⟨_, rfl, by decide +kernel⟩

/-- The start of its text tells an error, as none is the start of another. -/
theorem ProtocolError.ctorIdx_of_toText {a b : ProtocolError} (h : a.toText = b.toText) :
    a.ctorIdx = b.ctorIdx := by
  have hstarts : ∀ i : Fin starts.length, ∀ j : Fin starts.length,
      starts[i].toList <+: starts[j].toList → i = j := by
    decide +kernel
  obtain ⟨start, hstart, hprefix⟩ := exists_start a
  obtain ⟨start', hstart', hprefix'⟩ := exists_start b
  obtain ⟨hi, rfl⟩ := List.getElem?_eq_some_iff.mp hstart
  obtain ⟨hj, rfl⟩ := List.getElem?_eq_some_iff.mp hstart'
  rw [h] at hprefix
  rcases List.prefix_or_prefix_of_prefix hprefix hprefix' with hle | hle
  · exact Fin.mk.inj (hstarts ⟨_, hi⟩ ⟨_, hj⟩ hle)
  · exact (Fin.mk.inj (hstarts ⟨_, hj⟩ ⟨_, hi⟩ hle)).symm

/-- An I/O error as its text shows it. -/
def shownError (error : IoError) : IoError := ⟨.other 0, error.message⟩

def ProtocolError.shown : ProtocolError → ProtocolError
  | .io error => .io (shownError error)
  | error => error

/-- The text of an error tells it, except for the kind of an I/O error. -/
theorem ProtocolError.toText_inj {a b : ProtocolError} :
    a.toText = b.toText ↔ a.shown = b.shown := by
  constructor
  · intro h
    have hkind := ctorIdx_of_toText h
    cases a with
    | io error =>
      cases b with
      | io error' =>
        have hmessage : error.message = error'.message := (String.append_right_inj _).mp h
        rw [shown, shown, shownError, hmessage, shownError]
      | _ => cases hkind
    | unsupportedVersion version =>
      cases b with
      | unsupportedVersion version' =>
        rw [hexByte_inj.mp ((String.append_right_inj _).mp h)]
      | _ => cases hkind
    | unsupportedAuthVersion version =>
      cases b with
      | unsupportedAuthVersion version' =>
        rw [hexByte_inj.mp ((String.append_right_inj _).mp h)]
      | _ => cases hkind
    | unsupportedAddressType addressType =>
      cases b with
      | unsupportedAddressType addressType' =>
        rw [hexByte_inj.mp ((String.append_right_inj _).mp h)]
      | _ => cases hkind
    | noMethods | invalidDomain | fieldTooLong =>
      cases b with
      | noMethods | invalidDomain | fieldTooLong => first | rfl | cases hkind
      | _ => cases hkind
  · intro h
    have htext : ∀ error : ProtocolError, error.shown.toText = error.toText := by
      intro error
      cases error <;> rfl
    rw [← htext a, h, htext]

namespace CloseReason

/-- A reason as the texts of a line show it. -/
def shown : CloseReason → CloseReason
  | .handshakeIo error => .handshakeIo (shownError error)
  | .protocol error => .protocol error.shown
  | .commandNotSupported command => .commandNotSupported (.unknown command.asByte)
  | .resolveFailed error => .resolveFailed (shownError error)
  | .connectFailed error => .connectFailed (shownError error)
  | .clientError error => .clientError (shownError error)
  | .targetError error => .targetError (shownError error)
  | reason => reason

/-- One reason of each kind. -/
def kinds : List CloseReason :=
  [.handshakeTimeout, .handshakeIo .earlyEof, .protocol .noMethods, .noAcceptableAuthMethod,
    .authFailed, .commandNotSupported .bind, .addressTypeNotSupported 2, .invalidDomain,
    .deniedByPolicy .reservedAddress, .resolveFailed .earlyEof, .resolvedToNothing,
    .connectFailed .earlyEof, .connectTimeout, .completed, .idleTimeout, .clientError .earlyEof,
    .targetError .earlyEof, .shutdown]

theorem getElem?_kinds (r : CloseReason) : (kinds.map code)[r.ctorIdx]? = some r.code := by
  cases r <;> rfl

/-- The code is the kind of the reason. -/
theorem code_inj {r r' : CloseReason} : r.code = r'.code ↔ r.ctorIdx = r'.ctorIdx := by
  have hnodup : (kinds.map code).Nodup := by decide +kernel
  constructor
  · intro h
    have hsome := getElem?_kinds r
    obtain ⟨hlt, -⟩ := List.getElem?_eq_some_iff.mp hsome
    rw [h, ← getElem?_kinds r'] at hsome
    exact (List.getElem?_inj hlt hnodup).mp hsome
  · intro h
    have hsome := getElem?_kinds r
    rw [h, getElem?_kinds] at hsome
    exact (Option.some.inj hsome).symm

/-- **What the texts of a line tell**: the reason, except for the kind of an I/O error. -/
theorem texts_exact {r r' : CloseReason} :
    (r.code = r'.code ∧ r.detail = r'.detail) ↔ r.shown = r'.shown := by
  constructor
  · rintro ⟨hcode, hdetail⟩
    have hkind := code_inj.mp hcode
    cases r <;> cases r' <;> first | rfl | (cases hkind; done) | skip
    all_goals
      simp only [detail, Option.some.injEq, String.append_right_inj, hexByte_inj,
        DenyReason.toText_inj, ProtocolError.toText_inj] at hdetail
      simp only [shown, shownError, hdetail]
  · intro h
    have htexts : ∀ reason : CloseReason,
        reason.shown.code = reason.code ∧ reason.shown.detail = reason.detail := by
      intro reason
      cases reason with
      | protocol error =>
        have hshown : error.shown.shown = error.shown := by cases error <;> rfl
        exact ⟨rfl, congrArg some (ProtocolError.toText_inj.mpr hshown)⟩
      | _ => exact ⟨rfl, rfl⟩
    rw [← (htexts r).1, ← (htexts r).2, h]
    exact htexts r'

end CloseReason

/-! ## `log_closed` -/

/-- The fields of the line. -/
structure ClosedLine where
  connId : UInt64
  client : SocketAddr
  user : Option String
  target : Option TargetAddr
  targetAddr : Option SocketAddr
  bytesIn : Nat
  bytesOut : Nat
  durationMs : Nat
  reason : String
  detail : Option String
  deriving DecidableEq, Repr

def logClosed (context : ConnectionContext) (report : ConnectionReport) (counters : RelayCounters)
    (reason : CloseReason) (duration : Nat) : ClosedLine where
  connId := context.id
  client := context.peer
  user := report.user
  target := report.target
  targetAddr := report.targetAddr
  bytesIn := counters.clientToTarget
  bytesOut := counters.targetToClient
  durationMs := asMillis duration
  reason := reason.code
  detail := reason.detail

/-- The line of a connection that ends for `reason`. -/
def Connection.closedLine (c : Connection) (reason : CloseReason) (duration : Nat) : ClosedLine :=
  logClosed c.context c.world.report c.counters reason duration

def ClosedLine.fields (line : ClosedLine) : Bool × Bool × Bool :=
  (line.user.isSome, line.target.isSome, line.targetAddr.isSome)

/-- **The end of a connection is one of the table.** -/
theorem ConnEnds.table {peer : SocketAddr} {reason : CloseReason} {w : ConnWorld}
    (h : ConnEnds peer reason w) :
    (∃ stage ∈ reason.stages, w.At stage ∧
      (stage = .relaying → w.written = [0x05, 0x02, 0x01, 0x00] ++ replyBytes 0x00)) ∧
    ∀ answer, reason.answer = some answer → w.written <+: answer := by
  cases h with
  | cut hat hstage hmem _ hanswer =>
    refine ⟨⟨_, hmem, hstage, ?_⟩, hanswer⟩
    rintro rfl
    cases hat with
    | relaying => rfl
    | _ => cases show false = true from hstage.2
  | relayed addr result hread =>
    obtain ⟨hstages, hanswer⟩ := CloseReason.table_ofRelayEnd result
    refine ⟨⟨.relaying, by simp [hstages], ⟨rfl, rfl⟩, fun _ => rfl⟩, ?_⟩
    intro answer h
    rw [hanswer] at h
    obtain rfl := Option.some.inj h
    exact List.prefix_rfl

/-! ## The server -/

theorem relays_of_step {users : UserStore} {task task' : Task ConnSig CloseReason}
    {w w' : ConnWorld} {e : Task.Event ConnSig}
    (h : (connWorld users).step (task, w) e = some (task', w')) (hw : w'.relays = false) :
    w.relays = false := by
  obtain ⟨entries, hlog, -⟩ := (records_of_step h).2
  rw [ConnWorld.relays, hlog, List.any_append, Bool.or_eq_false_iff] at hw
  exact hw.1

/-- A connection has a relay only from `relay_tcp` on. -/
theorem kept_noRelay (config : ServerConfig) :
    Kept config fun _ c => c.world.relays = false → c.relay = none where
  later _ h := h
  new _ _ _ _ _ _ := rfl
  task := by
    intro s c c₁ c₂ event stamp h _ hrelay hstep hw
    obtain ⟨-, hsame, -⟩ := Connection.step_eq hstep
    have hnone := h (relays_of_step (Connection.step_after_relayStep hrelay hstep) hw)
    rw [hsame]
    unfold Connection.relayStep at hrelay
    split at hrelay
    · split at hrelay
      · rw [← Option.some.inj hrelay]
        exact hnone
      · simp at hrelay
    · rw [← Option.some.inj hrelay]
      simp [hnone]
    · simp at hrelay
    · rw [← Option.some.inj hrelay]
      exact hnone
  relayTcp := by
    intro log c c' now client target _ hstep hw
    obtain ⟨hworld, -, -⟩ := Connection.step_eq hstep
    obtain ⟨p, -, hmap⟩ := Option.bind_eq_some_iff.mp hworld
    obtain ⟨w, heffect, heq⟩ := Option.map_eq_some_iff.mp hmap
    obtain rfl : c.world.record (.relayStarted c.world.written) = w := Option.some.inj heffect
    obtain ⟨-, hc'⟩ := Prod.mk.inj heq
    rw [← hc'] at hw
    simp [ConnWorld.relays, ConnWorld.record] at hw
  pump := by
    intro log c relay relay' side now outcome h hrelay _ hw
    rw [h hw] at hrelay
    simp at hrelay

/-- What the line of a connection says, and what its client was told. -/
structure LineRight (reason : CloseReason) (written : Bytes) (stage : Stage) (line : ClosedLine) :
    Prop where
  reached : stage ∈ reason.stages
  fields : line.fields = stage.fields
  /-- No byte is counted before the relay. -/
  bytes : stage ≠ .relaying → line.bytesIn = 0 ∧ line.bytesOut = 0
  answer : ∀ answer, reason.answer = some answer → written <+: answer
  /-- Before the relay starts, the whole success reply is out. -/
  told : stage = .relaying → written = [0x05, 0x02, 0x01, 0x00] ++ replyBytes 0x00

/--
**The "connection closed" line.** Whenever a connection of the server ends, in whatever order
the tasks have moved and wherever it was interrupted, its line is one of the table: the fields
that are set are those of the stage at which this reason can occur, no bytes are counted
before the relay, and the client has got a part of the answer that belongs to the reason.
-/
theorem closed_line_table (config : ServerConfig) (start : Nat) (es : List (Nat × ServerEvent))
    (s : Server) (h : run Server.step (.new config start) es = some s) (c : Connection)
    (hc : c ∈ s.connections) (reason : CloseReason) (hreason : c.task = .done reason)
    (duration : Nat) :
    ∃ stage, LineRight reason c.world.written stage (c.closedLine reason duration) := by
  have hends := ((kept_inSpec config).of_run h c hc).ends hreason
  obtain ⟨⟨stage, hstage, hat, hrelay⟩, hanswer⟩ := hends.table
  refine ⟨stage, hstage, hat.1, ?_, hanswer, hrelay⟩
  intro hne
  have hnone : c.relay = none := (kept_noRelay config).of_run h c hc (by simp [hat.2, hne])
  simp [Connection.closedLine, logClosed, Connection.counters, hnone]

/-- The reason a finished task has returned. -/
def Connection.reason? (c : Connection) : Option CloseReason :=
  match c.task with
  | .done reason => some reason
  | _ => none

/-- A client with a wrong password: no user in its line, and the answer says failure. -/
theorem closed_line_table_wrong_password :
    ∃ s c, run Server.step (.new smallConfig 0)
        ((0, .accept (.v4 (.new 203 0 113 5) 40000) 0) :: (0, .tryAcquire) ::
          [.received [5], .received [1], .received [2], .sent [5, 2], .received [1], .received [1],
            .received [97], .received [1], .received [99], .returned (.verify [97] [99]) none,
            .returned .incrementAuthFailures (),
            .returned (.recordFailure (.v4 (.new 203 0 113 5))) .banned, .sent [1],
            .writeFailed ⟨.other 32, "broken pipe"⟩].map
          fun event => (1, .connection 0 event 1)) = some s ∧
      c ∈ s.connections ∧ c.task = .done .authFailed ∧
      c.world.written = [5, 2, 1] ∧
      ∃ stage, LineRight .authFailed [5, 2, 1] stage (c.closedLine .authFailed 7) := by
  have hrun : (run Server.step (.new smallConfig 0)
        ((0, .accept (.v4 (.new 203 0 113 5) 40000) 0) :: (0, .tryAcquire) ::
          [.received [5], .received [1], .received [2], .sent [5, 2], .received [1], .received [1],
            .received [97], .received [1], .received [99], .returned (.verify [97] [99]) none,
            .returned .incrementAuthFailures (),
            .returned (.recordFailure (.v4 (.new 203 0 113 5))) .banned, .sent [1],
            .writeFailed ⟨.other 32, "broken pipe"⟩].map
          fun event => (1, .connection 0 event 1))).map
        (fun s => s.connections.map fun c => (c.reason?, c.world.written)) =
      some [(some .authFailed, [5, 2, 1])] := by
    decide +kernel
  obtain ⟨s, hs, hconnections⟩ := Option.map_eq_some_iff.mp hrun
  obtain ⟨c, hc, hlist⟩ : ∃ c, c ∈ s.connections ∧
      (c.reason?, c.world.written) = (some .authFailed, [5, 2, 1]) := by
    have hmem : (some CloseReason.authFailed, ([5, 2, 1] : Bytes)) ∈
        s.connections.map fun c => (c.reason?, c.world.written) := by simp [hconnections]
    obtain ⟨c, hc, heq⟩ := List.mem_map.mp hmem
    exact ⟨c, hc, heq⟩
  obtain ⟨hreason, hwritten⟩ := Prod.mk.inj hlist
  have htask : c.task = .done .authFailed := by
    unfold Connection.reason? at hreason
    split at hreason
    · next reason hdone => rw [hdone, Option.some.inj hreason]
    · simp at hreason
  refine ⟨s, c, hs, hc, htask, hwritten, ?_⟩
  have hline := closed_line_table smallConfig 0 _ s hs c hc .authFailed htask 7
  rwa [hwritten] at hline

end SocksServer
