import SocksServer.Socks.Roundtrip

/-!
# The client's messages as bytes

The greeting, the credentials and the request written out as bytes, with what the readers make
of each: of a complete message, of one they refuse, and that there is nothing else.

* `TargetFrame` : a target behind its address type, well formed or not
* `greeting_total`, `auth_total`, `targetFrame_total` : every stream starts with the message,
  ends inside of it, or differs from it at a byte that is refused
-/

namespace SocksServer

open Infra

/-! ## Messages -/

/-- `VER | NMETHODS | METHODS...` -/
def greetingBytes (methods : Bytes) : Bytes := 0x05 :: UInt8.ofNat methods.length :: methods

/-- `VER | ULEN | UNAME | PLEN | PASSWD` -/
def authBytes (username password : Bytes) : Bytes :=
  0x01 :: UInt8.ofNat username.length :: username ++ UInt8.ofNat password.length :: password

/-- `ATYP | DST.ADDR | DST.PORT` of a known address type; `none` is a malformed domain. -/
inductive TargetFrame : Bytes → Option TargetAddr → Prop
  | ipv4 {octets : Bytes} (port : UInt16) (h : octets.length = 4) :
    TargetFrame (0x01 :: octets ++ portBytes port)
      (some (.ip (.new (.v4 (.ofOctets octets)) port)))
  | ipv6 {octets : Bytes} (port : UInt16) (h : octets.length = 16) :
    TargetFrame (0x04 :: octets ++ portBytes port)
      (some (.ip (.new (.v6 (.ofOctets octets)) port)))
  | domain {host : String} (port : UInt16) (hne : strBytes host ≠ [])
    (hlen : (strBytes host).length ≤ 255) (hbytes : ∀ b ∈ strBytes host, b ∈ domainAlphabet) :
    TargetFrame (0x03 :: UInt8.ofNat (strBytes host).length :: strBytes host ++ portBytes port)
      (some (.domain host port))
  | malformed {raw : Bytes} (port : UInt16) (hlen : raw.length ≤ 255)
    (hbad : raw = [] ∨ ∃ b ∈ raw, b ∉ domainAlphabet) :
    TargetFrame (0x03 :: UInt8.ofNat raw.length :: raw ++ portBytes port) none

/-- A request cut short: not even its header, or a part of its target. -/
def TruncatedRequest (bytes : Bytes) : Prop :=
  bytes.length < 4 ∨ ∃ command reserved frame target more, TargetFrame frame target ∧ more ≠ [] ∧
    bytes ++ more = 0x05 :: command :: reserved :: frame

/-! ## Readers on these messages -/

section Readers

variable {S : Sig}

theorem feed_greetingBytes {methods : Bytes} (h1 : 1 ≤ methods.length)
    (h2 : methods.length ≤ 255) :
    (Greeting.readFrom (S := S)).run.feed (greetingBytes methods) =
      some (.done (.ok ⟨methods⟩)) := by
  obtain ⟨bytes, henc, hfeed⟩ := (greeting_exact (S := S)).feeds ⟨methods⟩ ⟨h1, h2⟩
  have hbytes : bytes = greetingBytes methods := by
    simp only [Greeting.encode, lengthByte_ok h2] at henc
    exact (Except.ok.inj henc).symm
  rw [← hbytes]
  exact hfeed

theorem feed_greeting_version {version : UInt8} (h : version ≠ 0x05) :
    (Greeting.readFrom (S := S)).run.feed [version] =
      some (.done (.error (.unsupportedVersion version))) := by
  have h : version ≠ socksVersion := h
  unfold Greeting.readFrom
  rw [feed_readU8_bind, if_pos h]
  rfl

theorem feed_greeting_noMethods :
    (Greeting.readFrom (S := S)).run.feed [0x05, 0x00] = some (.done (.error .noMethods)) := by
  unfold Greeting.readFrom
  rw [feed_readU8_bind, if_neg (by decide), feed_readU8_bind, if_pos rfl]
  rfl

theorem feed_authBytes {username password : Bytes} (hu : username.length ≤ 255)
    (hp : password.length ≤ 255) :
    (UserPassRequest.readFrom (S := S)).run.feed (authBytes username password) =
      some (.done (.ok ⟨username, password⟩)) := by
  obtain ⟨bytes, henc, hfeed⟩ :=
    (userPassRequest_exact (S := S)).feeds ⟨username, password⟩ ⟨hu, hp⟩
  have hbytes : bytes = authBytes username password := by
    rw [encode_userPassRequest ⟨hu, hp⟩] at henc
    exact (Except.ok.inj henc).symm
  rw [← hbytes]
  exact hfeed

theorem feed_auth_version {version : UInt8} (h : version ≠ 0x01) :
    (UserPassRequest.readFrom (S := S)).run.feed [version] =
      some (.done (.error (.unsupportedAuthVersion version))) := by
  have h : version ≠ authVersion := h
  unfold UserPassRequest.readFrom
  rw [feed_readU8_bind, if_pos h]
  rfl

theorem parseDomain_malformed {raw : Bytes} (h : raw = [] ∨ ∃ b ∈ raw, b ∉ domainAlphabet) :
    parseDomain raw = .error .invalidDomain := by
  have hvalid : (!raw.isEmpty && raw.all isDomainByte) = false := by
    rw [Bool.eq_false_iff, ne_eq, domain_valid_iff]
    rintro ⟨hne, hall⟩
    rcases h with rfl | ⟨b, hb, hnot⟩
    · exact hne rfl
    · exact hnot (hall b hb)
  unfold parseDomain
  rw [hvalid]
  rfl

/-- A request from its four bytes of header on. -/
theorem feed_request_four {header : Bytes} (h : header.length = 4) (d : Bytes) :
    (Request.readFrom (S := S)).run.feed (header ++ d) =
      (if header.getD 0 0 ≠ socksVersion then throw (.unsupportedVersion (header.getD 0 0))
      else TargetAddr.readFrom (header.getD 3 0) >>= fun target =>
        (pure ⟨.fromByte (header.getD 1 0), target⟩ : Reader S Request)).run.feed d :=
  feed_readBytes_bind h _ d

/-- The header of a request and then its target. -/
theorem feed_request_header (command reserved atyp : UInt8) (d : Bytes) :
    (Request.readFrom (S := S)).run.feed (0x05 :: command :: reserved :: atyp :: d) =
      (TargetAddr.readFrom (S := S) atyp >>= fun target =>
        (pure ⟨.fromByte command, target⟩ : Reader S Request)).run.feed d :=
  feed_request_four (show [0x05, command, reserved, atyp].length = 4 from rfl) d

/-- What comes of a complete request. -/
def requestOf (command : UInt8) : Option TargetAddr → Except ProtocolError Request
  | some target => .ok ⟨.fromByte command, target⟩
  | none => .error .invalidDomain

/-- A complete request, whatever its command and its target. -/
theorem feed_request_frame (command reserved : UInt8) {frame : Bytes} {target : Option TargetAddr}
    (h : TargetFrame frame target) :
    (Request.readFrom (S := S)).run.feed (0x05 :: command :: reserved :: frame) =
      some (.done (requestOf command target)) := by
  cases h with
  | @ipv4 octets port hlen =>
    rw [List.cons_append, feed_request_header, ← List.append_nil (octets ++ portBytes port),
      List.append_assoc]
    rw [show (0x01 : UInt8) = atypIpv4 from rfl]
    simp only [readFrom_ipv4, bind_assoc, pure_bind]
    rw [feed_readBytes_bind hlen, feed_readU16_bind]
    rfl
  | @ipv6 octets port hlen =>
    rw [List.cons_append, feed_request_header, ← List.append_nil (octets ++ portBytes port),
      List.append_assoc]
    rw [show (0x04 : UInt8) = atypIpv6 from rfl]
    simp only [readFrom_ipv6, bind_assoc, pure_bind]
    rw [feed_readBytes_bind hlen, feed_readU16_bind]
    rfl
  | @domain host port hne hlen hbytes =>
    have hpos : 1 ≤ (strBytes host).length := List.length_pos_iff.mpr hne
    have hwf : (TargetAddr.domain host port).WellFormed := ⟨hpos, hlen, hbytes⟩
    have hread := feed_readFrom_domain_bind hwf
      (fun target => (pure ⟨.fromByte command, target⟩ : Reader S Request)) []
    rw [List.append_nil] at hread
    rw [List.cons_append, feed_request_header]
    exact hread
  | @malformed raw port hlen hbad =>
    rw [List.cons_append, feed_request_header, ← List.append_nil (portBytes port)]
    rw [show (0x03 : UInt8) = atypDomain from rfl]
    simp only [readFrom_domain, bind_assoc]
    rw [feed_readU8Prefixed_bind hlen, feed_readU16_bind, parseDomain_malformed hbad]
    rfl

theorem feed_request_version {version : UInt8} (h : version ≠ 0x05)
    (command reserved atyp : UInt8) :
    (Request.readFrom (S := S)).run.feed [version, command, reserved, atyp] =
      some (.done (.error (.unsupportedVersion version))) := by
  have h : version ≠ socksVersion := h
  have hread := feed_request_four (S := S)
    (show [version, command, reserved, atyp].length = 4 from rfl) []
  refine hread.trans ?_
  rw [if_pos (show [version, command, reserved, atyp].getD 0 0 ≠ socksVersion from h)]
  rfl

theorem feed_request_addressType {atyp : UInt8} (h4 : atyp ≠ 0x01) (h6 : atyp ≠ 0x04)
    (hd : atyp ≠ 0x03) (command reserved : UInt8) :
    (Request.readFrom (S := S)).run.feed [0x05, command, reserved, atyp] =
      some (.done (.error (.unsupportedAddressType atyp))) := by
  rw [feed_request_header]
  rcases readFrom_cases (S := S) atyp with h | h | h | hthrow
  · exact absurd h h4
  · exact absurd h h6
  · exact absurd h hd
  · rw [hthrow]
    rfl

end Readers

/-! ## Every stream -/

section Total

/-- A field behind its length. -/
theorem prefixed_total (input : Bytes) :
    (∃ field more, field.length ≤ 255 ∧ more ≠ [] ∧
      input ++ more = UInt8.ofNat field.length :: field) ∨
    ∃ field rest, field.length ≤ 255 ∧ input = UInt8.ofNat field.length :: field ++ rest := by
  cases input with
  | nil => exact .inl ⟨[], [0], by simp, by simp, rfl⟩
  | cons len rest =>
    have hlt : len.toNat < 256 := len.toNat_lt
    by_cases hle : len.toNat ≤ rest.length
    · right
      have hlen : (rest.take len.toNat).length = len.toNat := by
        rw [List.length_take]
        omega
      refine ⟨rest.take len.toNat, rest.drop len.toNat, by omega, ?_⟩
      rw [hlen, UInt8.ofNat_toNat, List.cons_append, List.take_append_drop]
    · left
      have hlen : (rest ++ List.replicate (len.toNat - rest.length) 0).length = len.toNat := by
        rw [List.length_append, List.length_replicate]
        omega
      refine ⟨rest ++ List.replicate (len.toNat - rest.length) 0,
        List.replicate (len.toNat - rest.length) 0, by omega, ?_, ?_⟩
      · rw [ne_eq, List.replicate_eq_nil_iff]
        omega
      · rw [hlen, UInt8.ofNat_toNat, List.cons_append]

/-- `n` octets and a port. -/
theorem octets_total (n : Nat) (input : Bytes) :
    (∃ octets port more, octets.length = n ∧ more ≠ [] ∧
      input ++ more = octets ++ portBytes port) ∨
    ∃ octets port rest, octets.length = n ∧ input = octets ++ portBytes port ++ rest := by
  have hsplit : ∀ block : Bytes, block.length = n + 2 →
      ∃ octets port, octets.length = n ∧ block = octets ++ portBytes port := by
    intro block hblock
    refine ⟨block.take n, portOfBytes (block.drop n), ?_, ?_⟩
    · rw [List.length_take]
      omega
    · rw [portBytes_portOfBytes (by rw [List.length_drop]; omega), List.take_append_drop]
  by_cases hle : n + 2 ≤ input.length
  · right
    obtain ⟨octets, port, hlen, heq⟩ :=
      hsplit (input.take (n + 2)) (by rw [List.length_take]; omega)
    refine ⟨octets, port, input.drop (n + 2), hlen, ?_⟩
    rw [← heq, List.take_append_drop]
  · left
    obtain ⟨octets, port, hlen, heq⟩ := hsplit (input ++ List.replicate (n + 2 - input.length) 0)
      (by rw [List.length_append, List.length_replicate]; omega)
    refine ⟨octets, port, _, hlen, ?_, heq⟩
    rw [ne_eq, List.replicate_eq_nil_iff]
    omega

theorem greeting_total (input : Bytes) :
    (∃ methods more, 1 ≤ methods.length ∧ methods.length ≤ 255 ∧ more ≠ [] ∧
      input ++ more = greetingBytes methods) ∨
    (∃ version rest, version ≠ 0x05 ∧ input = version :: rest) ∨
    (∃ rest, input = 0x05 :: 0x00 :: rest) ∨
    ∃ methods rest, 1 ≤ methods.length ∧ methods.length ≤ 255 ∧
      input = greetingBytes methods ++ rest := by
  cases input with
  | nil => exact .inl ⟨[0], [0x05, 0x01, 0x00], by decide, by decide, by decide, rfl⟩
  | cons version input =>
    by_cases hv : version = 0x05
    · subst hv
      rcases prefixed_total input with ⟨methods, more, hlen, hmore, heq⟩ |
        ⟨methods, rest, hlen, rfl⟩
      · by_cases hnil : methods = []
        · -- the length byte is the last one and may just as well be one
          subst hnil
          obtain rfl : input = [] := by
            have hlength := congrArg List.length heq
            have hpos : 0 < more.length := List.length_pos_iff.mpr hmore
            simp only [List.length_append, List.length_cons, List.length_nil] at hlength
            exact List.length_eq_zero_iff.mp (by omega)
          exact .inl ⟨[0], [0x01, 0x00], by decide, by decide, by decide, rfl⟩
        · refine .inl ⟨methods, more, List.length_pos_iff.mpr hnil, hlen, hmore, ?_⟩
          rw [List.cons_append, heq]
          rfl
      · by_cases hnil : methods = []
        · subst hnil
          exact .inr (.inr (.inl ⟨rest, rfl⟩))
        · exact .inr (.inr (.inr ⟨methods, rest, List.length_pos_iff.mpr hnil, hlen, rfl⟩))
    · exact .inr (.inl ⟨version, input, hv, rfl⟩)

theorem auth_total (input : Bytes) :
    (∃ username password more, username.length ≤ 255 ∧ password.length ≤ 255 ∧ more ≠ [] ∧
      input ++ more = authBytes username password) ∨
    (∃ version rest, version ≠ 0x01 ∧ input = version :: rest) ∨
    ∃ username password rest, username.length ≤ 255 ∧ password.length ≤ 255 ∧
      input = authBytes username password ++ rest := by
  cases input with
  | nil => exact .inl ⟨[], [], [0x01, 0x00, 0x00], by decide, by decide, by decide, rfl⟩
  | cons version input =>
    by_cases hv : version = 0x01
    · subst hv
      rcases prefixed_total input with ⟨username, more, hu, hmore, heq⟩ | ⟨username, tail, hu, rfl⟩
      · refine .inl ⟨username, [], more ++ [0x00], hu, by decide, by simp, ?_⟩
        rw [List.cons_append, ← List.append_assoc, heq]
        rfl
      · rcases prefixed_total tail with ⟨password, more, hp, hmore, heq⟩ | ⟨password, rest, hp, rfl⟩
        · refine .inl ⟨username, password, more, hu, hp, hmore, ?_⟩
          simp only [authBytes, List.cons_append, List.append_assoc, heq]
        · refine .inr (.inr ⟨username, password, rest, hu, hp, ?_⟩)
          simp [authBytes]
    · exact .inr (.inl ⟨version, input, hv, rfl⟩)

/-- A domain is well formed or malformed. -/
theorem targetFrame_domain {raw : Bytes} (port : UInt16) (hlen : raw.length ≤ 255) :
    ∃ target, TargetFrame (0x03 :: UInt8.ofNat raw.length :: raw ++ portBytes port) target := by
  by_cases hbad : raw = [] ∨ ∃ b ∈ raw, b ∉ domainAlphabet
  · exact ⟨none, .malformed port hlen hbad⟩
  · obtain ⟨hne, hall⟩ := not_or.mp hbad
    have hall : ∀ b ∈ raw, b ∈ domainAlphabet := by
      intro b hb
      by_contra hnot
      exact hall ⟨b, hb, hnot⟩
    have hvalid := (domain_valid_iff raw).mpr ⟨hne, hall⟩
    obtain ⟨host, hutf⟩ :=
      Option.ne_none_iff_exists'.mp (fromUtf8_ne_none (Bool.and_eq_true_iff.mp hvalid).2)
    obtain rfl := strBytes_fromUtf8 hutf
    exact ⟨some (.domain host port), .domain port hne hlen hall⟩

/-- What follows a known address type. -/
theorem targetFrame_total {atyp : UInt8} (h : atyp = 0x01 ∨ atyp = 0x04 ∨ atyp = 0x03)
    (input : Bytes) :
    (∃ frame target more, TargetFrame frame target ∧ more ≠ [] ∧ atyp :: input ++ more = frame) ∨
    ∃ frame target rest, TargetFrame frame target ∧ atyp :: input = frame ++ rest := by
  rcases h with rfl | rfl | rfl
  · rcases octets_total 4 input with ⟨octets, port, more, hlen, hmore, heq⟩ |
      ⟨octets, port, rest, hlen, rfl⟩
    · exact .inl ⟨_, _, more, .ipv4 port hlen, hmore, congrArg _ heq⟩
    · exact .inr ⟨_, _, rest, .ipv4 port hlen, rfl⟩
  · rcases octets_total 16 input with ⟨octets, port, more, hlen, hmore, heq⟩ |
      ⟨octets, port, rest, hlen, rfl⟩
    · exact .inl ⟨_, _, more, .ipv6 port hlen, hmore, congrArg _ heq⟩
    · exact .inr ⟨_, _, rest, .ipv6 port hlen, rfl⟩
  · rcases prefixed_total input with ⟨raw, more, hlen, hmore, heq⟩ | ⟨raw, tail, hlen, rfl⟩
    · obtain ⟨target, hframe⟩ := targetFrame_domain 0 hlen
      refine .inl ⟨_, target, more ++ portBytes 0, hframe, by simp [hmore], ?_⟩
      rw [List.cons_append, ← List.append_assoc, heq]
      rfl
    · rcases octets_total 0 tail with ⟨octets, port, more, hzero, hmore, heq⟩ |
        ⟨octets, port, rest, hzero, rfl⟩
      · obtain rfl := List.length_eq_zero_iff.mp hzero
        obtain ⟨target, hframe⟩ := targetFrame_domain port hlen
        refine .inl ⟨_, target, more, hframe, hmore, ?_⟩
        simp only [List.cons_append, List.append_assoc, heq, List.nil_append]
      · obtain rfl := List.length_eq_zero_iff.mp hzero
        obtain ⟨target, hframe⟩ := targetFrame_domain port hlen
        refine .inr ⟨_, target, rest, hframe, ?_⟩
        simp

end Total

end SocksServer
