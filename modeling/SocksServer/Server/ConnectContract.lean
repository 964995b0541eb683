import SocksServer.Server.Connector
import Mathlib.Data.List.Induction
import Mathlib.Data.List.Nodup

/-!
# What the connector connects to

The connector is run on any answer of the resolver and any sequence of connect outcomes.

* `foldl_sortOut` — the first loop keeps the allowed addresses in order of first occurrence,
  and the first denial
* `eval_tryConnect` — the second loop stops at the first address that answers
* `connect_to_target_contract` — what is attempted and what comes out
-/

namespace SocksServer

open Infra

/-! ## Which addresses are allowed -/

/-- The resolved addresses that may be connected to, in order of first occurrence. -/
def allowedAddrs (policy : DestinationPolicy) (resolved : List SocketAddr) : List SocketAddr :=
  ((resolved.map canonicalAddr).filter fun addr => (policy.check addr).toBool).eraseDups

/-- Why the policy denies an address. -/
def denial (policy : DestinationPolicy) (addr : SocketAddr) : Option DenyReason :=
  match policy.check (canonicalAddr addr) with
  | .ok () => none
  | .error reason => some reason

section Allowed

variable {policy : DestinationPolicy} {resolved : List SocketAddr}

/-- An address at the end is kept when it has not occurred before. -/
theorem eraseDups_concat (l : List SocketAddr) (a : SocketAddr) :
    (l ++ [a]).eraseDups = if a ∈ l then l.eraseDups else l.eraseDups ++ [a] := by
  rw [List.eraseDups_append]
  by_cases ha : a ∈ l
  · simp [List.removeAll, ha]
  · have hrem : [a].removeAll l = [a] := by simp [List.removeAll, ha]
    rw [hrem, if_neg ha, List.eraseDups_cons]
    rfl

theorem nodup_eraseDups (l : List SocketAddr) : l.eraseDups.Nodup := by
  induction l using List.reverseRecOn with
  | nil => simp
  | append_singleton l a ih =>
    rw [eraseDups_concat]
    split
    · exact ih
    · next ha =>
      refine List.nodup_append.mpr ⟨ih, by simp, ?_⟩
      intro x hx y hy hxy
      rw [hxy, List.mem_singleton.mp hy] at hx
      exact ha (List.mem_eraseDups.mp hx)

theorem mem_allowedAddrs {addr : SocketAddr} :
    addr ∈ allowedAddrs policy resolved ↔
      (∃ a ∈ resolved, canonicalAddr a = addr) ∧ policy.check addr = .ok () := by
  have hok : (policy.check addr).toBool = true ↔ policy.check addr = .ok () := by
    cases policy.check addr <;> simp [Except.toBool]
  simp [allowedAddrs, List.mem_eraseDups, hok]

theorem isCanonical_of_mem {addr : SocketAddr} (h : addr ∈ allowedAddrs policy resolved) :
    IsCanonical addr.ip := by
  obtain ⟨⟨a, -, rfl⟩, -⟩ := mem_allowedAddrs.mp h
  rw [ip_canonicalAddr]
  exact canonicalIp_idem _

/-- The first loop of the connector. -/
theorem foldl_sortOut (policy : DestinationPolicy) (resolved : List SocketAddr) :
    resolved.foldl (sortOut policy) ([], none) =
      (allowedAddrs policy resolved, resolved.findSome? (denial policy)) := by
  induction resolved using List.reverseRecOn with
  | nil => rfl
  | append_singleton l a ih =>
    rw [List.foldl_append, ih]
    simp only [List.foldl_cons, List.foldl_nil, sortOut, List.findSome?_append, List.findSome?_cons,
      List.findSome?_nil, denial]
    cases hc : policy.check (canonicalAddr a) with
    | error reason =>
      have hfilter : allowedAddrs policy (l ++ [a]) = allowedAddrs policy l := by
        simp [allowedAddrs, List.filter_append, hc, Except.toBool]
      rw [hfilter]
    | ok u =>
      have hfilter : allowedAddrs policy (l ++ [a]) =
          if (allowedAddrs policy l).contains (canonicalAddr a) then allowedAddrs policy l
          else allowedAddrs policy l ++ [canonicalAddr a] := by
        have hone : [canonicalAddr a].filter (fun addr => (policy.check addr).toBool) =
            [canonicalAddr a] := by
          simp [hc, Except.toBool]
        simp only [allowedAddrs, List.map_append, List.filter_append, List.map_cons, List.map_nil,
          hone, eraseDups_concat, List.contains_iff_mem, List.mem_eraseDups]
      rw [hfilter, Option.or_none]
      dsimp only
      split <;> rfl

/-- Nothing is allowed exactly when every address is denied. -/
theorem allowedAddrs_eq_nil :
    allowedAddrs policy resolved = [] ↔ ∀ a ∈ resolved, ∃ r, denial policy a = some r := by
  rw [List.eq_nil_iff_forall_not_mem]
  constructor
  · intro h a ha
    unfold denial
    cases hc : policy.check (canonicalAddr a) with
    | ok u => exact absurd (mem_allowedAddrs.mpr ⟨⟨a, ha, rfl⟩, hc⟩) (h _)
    | error r => exact ⟨r, rfl⟩
  · intro h addr haddr
    obtain ⟨⟨a, ha, rfl⟩, hok⟩ := mem_allowedAddrs.mp haddr
    obtain ⟨r, hr⟩ := h a ha
    simp [denial, hok] at hr

end Allowed

/-! ## Running the connector -/

section Run

variable (resolve : Except IoError (List SocketAddr)) (outcomes : Nat → Except IoError Unit)

/-- The resolver and the network. The state is the list of addresses attempted so far. -/
def answerOp (op : ConnOp) (attempts : List SocketAddr) : op.Ret × List SocketAddr :=
  match op with
  | .lookupHost _ _ => (resolve, attempts)
  | .tcpConnect addr => (outcomes attempts.length, attempts ++ [addr])
  | .relay => (.completed, attempts)

def answerCall (c : ConnCall) (attempts : List SocketAddr) : c.Res × List SocketAddr :=
  match c with
  | .verify _ _ => (none, attempts)
  | .recordFailure _ => (.disabled, attempts)
  | .incrementAuthFailures => ((), attempts)
  | .setUser _ => ((), attempts)
  | .setTarget _ => ((), attempts)
  | .connectToTarget _ => ((), attempts)
  | .setTargetAddr _ => ((), attempts)
  | .relayTcp => ((), attempts)

/-- The result of the connector and the addresses it attempted, in order. -/
def runConnector (policy : DestinationPolicy) (target : TargetAddr) :
    Option (Except ConnectError ConnectedTarget × List SocketAddr) :=
  (connectToTarget policy target).eval (S := ConnSig) (answerOp resolve outcomes) answerCall []

/-- What the connector goes on with: the address itself or the answer of the resolver. -/
def resolvedAddrs : TargetAddr → Except IoError (List SocketAddr)
  | .ip addr => .ok [addr]
  | .domain _ _ => resolve

variable {resolve outcomes}

theorem eval_tryConnect_ok {addr : SocketAddr} {rest attempts : List SocketAddr}
    {lastError : Option IoError} (h : outcomes attempts.length = .ok ()) :
    (tryConnect lastError (addr :: rest)).eval (S := ConnSig) (answerOp resolve outcomes)
      answerCall attempts = some (.ok ⟨addr⟩, attempts ++ [addr]) := by
  unfold tryConnect
  refine (Task.eval_awaitOp_bind (S := ConnSig) (.tcpConnect addr) _ attempts).trans ?_
  simp only [answerOp, h]
  rfl

theorem eval_tryConnect_error {addr : SocketAddr} {rest attempts : List SocketAddr}
    {lastError : Option IoError} {e : IoError} (h : outcomes attempts.length = .error e) :
    (tryConnect lastError (addr :: rest)).eval (S := ConnSig) (answerOp resolve outcomes)
      answerCall attempts = (tryConnect (some e) rest).eval (S := ConnSig)
        (answerOp resolve outcomes) answerCall (attempts ++ [addr]) := by
  rw [tryConnect]
  refine (Task.eval_awaitOp_bind (S := ConnSig) (.tcpConnect addr) _ attempts).trans ?_
  simp only [answerOp, h]

variable (resolve outcomes) in
/--
The second loop. It either stops at the first address that answers or has tried all of them
and reports the last error.
-/
theorem eval_tryConnect (addrs : List SocketAddr) (lastError : Option IoError)
    (attempts : List SocketAddr) :
    ∃ result, ∃ n ≤ addrs.length,
      (tryConnect lastError addrs).eval (S := ConnSig) (answerOp resolve outcomes) answerCall
        attempts = some (result, attempts ++ addrs.take n) ∧
      ((∃ i addr, n = i + 1 ∧ addrs[i]? = some addr ∧ result = .ok ⟨addr⟩ ∧
          outcomes (attempts.length + i) = .ok () ∧
          ∀ j < i, ∃ e, outcomes (attempts.length + j) = .error e) ∨
        (n = addrs.length ∧ (∀ j < n, ∃ e, outcomes (attempts.length + j) = .error e) ∧
          ((n = 0 ∧ result = .error (lastError.elim .noAddresses .connect)) ∨
            ∃ i e, n = i + 1 ∧ outcomes (attempts.length + i) = .error e ∧
              result = .error (.connect e)))) := by
  induction addrs generalizing lastError attempts with
  | nil =>
    refine ⟨.error (lastError.elim .noAddresses .connect), 0, Nat.le_refl 0, ?_, .inr ?_⟩
    · simp [tryConnect, Task.eval]
    · exact ⟨rfl, fun j hj => absurd hj (Nat.not_lt_zero j), .inl ⟨rfl, rfl⟩⟩
  | cons addr rest ih =>
    cases ho : outcomes attempts.length with
    | ok u =>
      refine ⟨.ok ⟨addr⟩, 1, by simp, ?_, .inl ⟨0, addr, rfl, rfl, rfl, by simpa using ho, ?_⟩⟩
      · rw [eval_tryConnect_ok ho]
        simp
      · exact fun j hj => absurd hj (Nat.not_lt_zero j)
    | error e =>
      obtain ⟨result, n, hn, heval, hcases⟩ := ih (some e) (attempts ++ [addr])
      -- attempt `i` of the rest is attempt `i + 1` of the whole loop
      have hshift : ∀ i, attempts.length + (i + 1) = (attempts ++ [addr]).length + i := by
        intro i
        simp only [List.length_append, List.length_singleton]
        omega
      have hbefore : ∀ m, (∀ j < m, ∃ e, outcomes ((attempts ++ [addr]).length + j) = .error e) →
          ∀ j < m + 1, ∃ e, outcomes (attempts.length + j) = .error e := by
        intro m hall j hj
        cases j with
        | zero => exact ⟨e, ho⟩
        | succ j => rw [hshift]; exact hall j (by omega)
      refine ⟨result, n + 1, by simpa using hn, ?_, ?_⟩
      · rw [eval_tryConnect_error ho, heval]
        simp
      · rcases hcases with ⟨i, a, rfl, ha, hres, hok, hall⟩ | ⟨rfl, hall, hlast⟩
        · refine .inl ⟨i + 1, a, rfl, by simpa using ha, hres, ?_, hbefore i hall⟩
          rw [hshift]
          exact hok
        · refine .inr ⟨by simp, hbefore _ hall, .inr ?_⟩
          rcases hlast with ⟨h0, hres⟩ | ⟨i, e', hi, he', hres⟩
          · -- nothing is left, so the error of this attempt is the last one
            exact ⟨0, e, by rw [h0], ho, hres⟩
          · exact ⟨i + 1, e', by rw [hi], by rw [hshift]; exact he', hres⟩

end Run

/-! ## The contract -/

/--
What the connector attempted and returned, when `resolved` is what it went on with and
`outcomes` are the results of its attempts.
-/
structure ConnectContract (policy : DestinationPolicy)
    (resolved : Except IoError (List SocketAddr)) (outcomes : Nat → Except IoError Unit)
    (result : Except ConnectError ConnectedTarget) (attempts : List SocketAddr) : Prop where
  /-- Only the address that was judged is connected to, and it is not an IPv4-mapped one. -/
  judged : ∀ addr ∈ attempts, policy.check addr = .ok () ∧
    ∀ v4, addr.ip ≠ .v6 (.ofIpv4Mapped v4)
  nodup : attempts.Nodup
  bounded : attempts.length ≤ maxConnectAttempts
  /-- Attempts follow the order of the resolver; without an answer there are none. -/
  segment : (∃ l, resolved = .ok l ∧ attempts <+: allowedAddrs policy l) ∨
    (∃ e, resolved = .error e ∧ attempts = [])
  /-- The attempt that succeeded is the last one. -/
  ok_iff : ∀ addr, result = .ok ⟨addr⟩ ↔ ∃ i, attempts.length = i + 1 ∧
    attempts[i]? = some addr ∧ outcomes i = .ok () ∧ ∀ j < i, ∃ e, outcomes j = .error e
  succeeds_iff : (∃ connected, result = .ok connected) ↔
    ∃ i < attempts.length, outcomes i = .ok ()
  resolve_iff : ∀ e, result = .error (.resolve e) ↔ resolved = .error e
  noAddresses_iff : result = .error .noAddresses ↔ resolved = .ok []
  denied_iff : ∀ r, result = .error (.denied r) ↔ ∃ a rest, resolved = .ok (a :: rest) ∧
    policy.check (canonicalAddr a) = .error r ∧
    ∀ b ∈ a :: rest, ∃ r', policy.check (canonicalAddr b) = .error r'
  /-- Every allowed address was tried, up to the limit; the last error is reported. -/
  connect_iff : ∀ e, result = .error (.connect e) ↔ ∃ l i, resolved = .ok l ∧
    (∃ a ∈ l, policy.check (canonicalAddr a) = .ok ()) ∧
    attempts = (allowedAddrs policy l).take maxConnectAttempts ∧
    (∀ j < attempts.length, ∃ e', outcomes j = .error e') ∧
    attempts.length = i + 1 ∧ outcomes i = .error e

section Contract

variable {policy : DestinationPolicy} {outcomes : Nat → Except IoError Unit}

theorem denial_eq_some {addr : SocketAddr} {r : DenyReason} :
    denial policy addr = some r ↔ policy.check (canonicalAddr addr) = .error r := by
  unfold denial
  cases policy.check (canonicalAddr addr) <;> simp

/-- Nothing was attempted and the connector did not succeed. -/
theorem contract_of_no_attempt {resolved : Except IoError (List SocketAddr)} {error : ConnectError}
    (hresolve : ∀ e, error = .resolve e ↔ resolved = .error e)
    (hnone : error = .noAddresses ↔ resolved = .ok [])
    (hdenied : ∀ r, error = .denied r ↔ ∃ a rest, resolved = .ok (a :: rest) ∧
      policy.check (canonicalAddr a) = .error r ∧
      ∀ b ∈ a :: rest, ∃ r', policy.check (canonicalAddr b) = .error r')
    (hconnect : ∀ e, error ≠ .connect e) :
    ConnectContract policy resolved outcomes (.error error) [] where
  judged := by simp
  nodup := List.nodup_nil
  bounded := Nat.zero_le _
  segment := by
    cases resolved with
    | ok l => exact .inl ⟨l, rfl, List.nil_prefix⟩
    | error e => exact .inr ⟨e, rfl, rfl⟩
  ok_iff := by simp
  succeeds_iff := by simp
  resolve_iff := by simpa using hresolve
  noAddresses_iff := by simpa using hnone
  denied_iff := by simpa using hdenied
  connect_iff := by simp [hconnect]

theorem contract_resolve_failed (e : IoError) :
    ConnectContract policy (.error e) outcomes (.error (.resolve e)) [] := by
  refine contract_of_no_attempt ?_ ?_ ?_ ?_ <;> simp

theorem contract_no_addresses :
    ConnectContract policy (.ok []) outcomes (.error .noAddresses) [] := by
  refine contract_of_no_attempt ?_ ?_ ?_ ?_ <;> simp

theorem contract_denied {a : SocketAddr} {rest : List SocketAddr} {r : DenyReason}
    (ha : policy.check (canonicalAddr a) = .error r)
    (hall : ∀ b ∈ a :: rest, ∃ r', policy.check (canonicalAddr b) = .error r') :
    ConnectContract policy (.ok (a :: rest)) outcomes (.error (.denied r)) [] := by
  refine contract_of_no_attempt (by simp) (by simp) ?_ (by simp)
  intro r'
  constructor
  · intro h
    cases h
    exact ⟨a, rest, rfl, ha, hall⟩
  · rintro ⟨a', rest', hl, ha', -⟩
    cases hl
    rw [ha] at ha'
    rw [Except.error.inj ha']

/-- What holds of the attempts because they are the first of the allowed addresses. -/
theorem attempts_of_prefix {l attempts : List SocketAddr}
    (h : attempts <+: (allowedAddrs policy l).take maxConnectAttempts) :
    (∀ addr ∈ attempts, policy.check addr = .ok () ∧ ∀ v4, addr.ip ≠ .v6 (.ofIpv4Mapped v4)) ∧
      attempts.Nodup ∧ attempts.length ≤ maxConnectAttempts ∧ attempts <+: allowedAddrs policy l := by
  have hsegment : attempts <+: allowedAddrs policy l := h.trans (List.take_prefix _ _)
  refine ⟨?_, (nodup_eraseDups _).sublist hsegment.sublist, ?_, hsegment⟩
  · intro addr haddr
    have hmem := hsegment.subset haddr
    exact ⟨(mem_allowedAddrs.mp hmem).2, fun v4 => (isCanonical_of_mem hmem).ne_mapped v4⟩
  · have := h.length_le
    have := List.length_take_le maxConnectAttempts (allowedAddrs policy l)
    omega

/-- One allowed address, and neither of the other errors can be right. -/
theorem not_all_denied (result : Except ConnectError ConnectedTarget) {l : List SocketAddr}
    {addr : SocketAddr} (h : addr ∈ allowedAddrs policy l)
    (hresult : ∀ r, result ≠ .error (.denied r)) :
    l ≠ [] ∧ (∃ a ∈ l, policy.check (canonicalAddr a) = .ok ()) ∧
      ∀ r, result = .error (.denied r) ↔ ∃ a rest, (.ok l : Except IoError _) = .ok (a :: rest) ∧
        policy.check (canonicalAddr a) = .error r ∧
        ∀ b ∈ a :: rest, ∃ r', policy.check (canonicalAddr b) = .error r' := by
  obtain ⟨⟨a, ha, rfl⟩, hok⟩ := mem_allowedAddrs.mp h
  refine ⟨List.ne_nil_of_mem ha, ⟨a, ha, hok⟩, ?_⟩
  intro r
  constructor
  · intro hr
    exact absurd hr (hresult r)
  · rintro ⟨a', rest, hl, -, hall⟩
    obtain ⟨r', hr'⟩ := hall a (Except.ok.inj hl ▸ ha)
    rw [hok] at hr'
    cases hr'

/-- The second loop stopped at an address that answered. -/
theorem contract_connected {l : List SocketAddr} {addr : SocketAddr} {i : Nat}
    (hget : ((allowedAddrs policy l).take maxConnectAttempts)[i]? = some addr)
    (hok : outcomes i = .ok ()) (hall : ∀ j < i, ∃ e, outcomes j = .error e) :
    ConnectContract policy (.ok l) outcomes (.ok ⟨addr⟩)
      (((allowedAddrs policy l).take maxConnectAttempts).take (i + 1)) := by
  obtain ⟨hi, -⟩ := List.getElem?_eq_some_iff.mp hget
  have hlen : (((allowedAddrs policy l).take maxConnectAttempts).take (i + 1)).length = i + 1 :=
    List.length_take_of_le hi
  have hlast : (((allowedAddrs policy l).take maxConnectAttempts).take (i + 1))[i]? =
      some addr := by
    rw [List.getElem?_take_of_lt (Nat.lt_succ_self i), hget]
  obtain ⟨hjudged, hnodup, hbounded, hsegment⟩ :=
    attempts_of_prefix (List.take_prefix (i + 1) ((allowedAddrs policy l).take maxConnectAttempts))
  obtain ⟨hnotnil, -, hdenied⟩ := not_all_denied (.ok ⟨addr⟩)
    (hsegment.subset (List.mem_of_getElem? hlast)) (by simp)
  refine ⟨hjudged, hnodup, hbounded, .inl ⟨l, rfl, hsegment⟩, ?_, ?_, by simp,
    by simpa using hnotnil, hdenied, ?_⟩
  · intro addr'
    constructor
    · intro h
      cases h
      exact ⟨i, hlen, hlast, hok, hall⟩
    · rintro ⟨j, hj, hgetj, -⟩
      obtain rfl : j = i := by omega
      rw [hlast] at hgetj
      rw [Option.some.inj hgetj]
  · exact ⟨fun _ => ⟨i, by omega, hok⟩, fun _ => ⟨_, rfl⟩⟩
  · intro e
    constructor
    · intro h
      simp at h
    · rintro ⟨l', j, -, -, -, hfailed, -⟩
      obtain ⟨e', he'⟩ := hfailed i (by omega)
      rw [hok] at he'
      simp at he'

/-- The second loop tried every address; the last error is reported. -/
theorem contract_failed {l : List SocketAddr} {i : Nat} {e : IoError}
    (hlen : ((allowedAddrs policy l).take maxConnectAttempts).length = i + 1)
    (hall : ∀ j < i + 1, ∃ e, outcomes j = .error e) (he : outcomes i = .error e) :
    ConnectContract policy (.ok l) outcomes (.error (.connect e))
      ((allowedAddrs policy l).take maxConnectAttempts) := by
  have hnot : ∀ j < i + 1, outcomes j ≠ .ok () := by
    intro j hj hok
    obtain ⟨e', he'⟩ := hall j hj
    rw [hok] at he'
    simp at he'
  obtain ⟨hjudged, hnodup, hbounded, hsegment⟩ :=
    attempts_of_prefix (List.prefix_rfl (l := (allowedAddrs policy l).take maxConnectAttempts))
  obtain ⟨addr, haddr⟩ := List.exists_mem_of_ne_nil _
    (List.ne_nil_of_length_eq_add_one hlen)
  obtain ⟨hnotnil, hallowed, hdenied⟩ := not_all_denied (.error (.connect e))
    (hsegment.subset haddr) (by simp)
  refine ⟨hjudged, hnodup, hbounded, .inl ⟨l, rfl, hsegment⟩, ?_, ?_, by simp,
    by simpa using hnotnil, hdenied, ?_⟩
  · intro addr'
    constructor
    · intro h
      simp at h
    · rintro ⟨j, hj, -, hok, -⟩
      exact absurd hok (hnot j (by omega))
  · constructor
    · rintro ⟨c, hc⟩
      simp at hc
    · rintro ⟨j, hj, hok⟩
      exact absurd hok (hnot j (by omega))
  · intro e'
    constructor
    · intro h
      cases h
      exact ⟨l, i, rfl, hallowed, rfl, fun j hj => hall j (by omega), hlen, he⟩
    · rintro ⟨l', j, -, -, -, -, hj, hje⟩
      obtain rfl : j = i := by omega
      rw [he] at hje
      rw [Except.error.inj hje]

/-- The connector from the resolved addresses on. -/
theorem contract_resolved (resolve : Except IoError (List SocketAddr)) (l : List SocketAddr) :
    ∃ result attempts,
      (connectToResolved policy l).eval (S := ConnSig) (answerOp resolve outcomes) answerCall [] =
        some (result, attempts) ∧
      ConnectContract policy (.ok l) outcomes result attempts := by
  unfold connectToResolved
  rw [foldl_sortOut]
  dsimp only
  by_cases hnil : allowedAddrs policy l = []
  · rw [if_pos (by simp [hnil])]
    have hall : ∀ b ∈ l, ∃ r, policy.check (canonicalAddr b) = .error r := by
      intro b hb
      obtain ⟨r, hr⟩ := allowedAddrs_eq_nil.mp hnil b hb
      exact ⟨r, denial_eq_some.mp hr⟩
    cases l with
    | nil => exact ⟨_, _, rfl, contract_no_addresses⟩
    | cons a rest =>
      obtain ⟨r, hr⟩ := hall a (by simp)
      refine ⟨_, _, rfl, ?_⟩
      rw [List.findSome?_cons, denial_eq_some.mpr hr]
      exact contract_denied hr hall
  · rw [if_neg (by simp [hnil])]
    obtain ⟨result, n, hn, heval, hcases⟩ := eval_tryConnect resolve outcomes
      ((allowedAddrs policy l).take maxConnectAttempts) none []
    refine ⟨result, _, heval, ?_⟩
    simp only [List.length_nil, Nat.zero_add] at hcases
    rcases hcases with ⟨i, addr, rfl, hget, rfl, hok, hall⟩ |
      ⟨hfull, hall, ⟨h0, -⟩ | ⟨i, e, rfl, he, rfl⟩⟩
    · exact contract_connected hget hok hall
    · -- the list is not empty, so there is a last error
      have hpos : 0 < (allowedAddrs policy l).length := List.length_pos_iff.mpr hnil
      simp [maxConnectAttempts] at hfull
      omega
    · rw [List.nil_append, List.take_of_length_le (by omega)]
      exact contract_failed hfull.symm hall he

end Contract

/--
**The connector keeps to its policy.** It returns for every target, every answer of the
resolver and every sequence of connect outcomes, and then what it attempted and what it
returned are as `ConnectContract` says.
-/
theorem connect_to_target_contract (policy : DestinationPolicy) (target : TargetAddr)
    (resolve : Except IoError (List SocketAddr)) (outcomes : Nat → Except IoError Unit) :
    ∃ result attempts, runConnector resolve outcomes policy target = some (result, attempts) ∧
      ConnectContract policy (resolvedAddrs resolve target) outcomes result attempts := by
  cases target with
  | ip addr => exact contract_resolved resolve [addr]
  | domain host port =>
    cases resolve with
    | ok l => exact contract_resolved (.ok l) l
    | error e => exact ⟨_, _, rfl, contract_resolve_failed e⟩

end SocksServer
