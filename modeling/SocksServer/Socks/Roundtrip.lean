import SocksServer.Socks.Messages

/-!
# Encoders and readers fit together

For each message type the encoder and the reader are separate code. Here they are shown to be
inverse to each other, in both directions and for every way the stream can end.

* `CodecExact` — what that means for one message type
* `codecExact_of` — three facts about a type are enough: the bytes of a message feed its
  reader, the reader hands I/O errors on, and an accepted stream starts with an encoding
* `codecs_exact` — all six message types
-/

namespace SocksServer

open Infra

/-! ## Well-formed messages -/

/-- `[A-Za-z0-9._:-]` -/
def domainAlphabet : Bytes :=
  (List.range' 65 26 ++ List.range' 97 26 ++ List.range' 48 10 ++ [46, 95, 58, 45]).map UInt8.ofNat

namespace Greeting

def WellFormed (m : Greeting) : Prop := 1 ≤ m.methods.length ∧ m.methods.length ≤ 255

end Greeting

namespace UserPassRequest

def WellFormed (m : UserPassRequest) : Prop := m.username.length ≤ 255 ∧ m.password.length ≤ 255

end UserPassRequest

namespace SocketAddr

/-- An IPv6 address without flow label and scope id. -/
def IsPlain (addr : SocketAddr) : Prop := addr = .new addr.ip addr.port

end SocketAddr

namespace TargetAddr

def WellFormed : TargetAddr → Prop
  | .ip addr => addr.IsPlain
  | .domain host _ =>
    1 ≤ (strBytes host).length ∧ (strBytes host).length ≤ 255 ∧
      ∀ b ∈ strBytes host, b ∈ domainAlphabet

end TargetAddr

namespace Request

def WellFormed (m : Request) : Prop :=
  (∃ b, Command.fromByte b = m.command) ∧ m.target.WellFormed

end Request

namespace Reply

def WellFormed (m : Reply) : Prop :=
  (∃ b, ReplyCode.fromByte b = m.code) ∧ m.bindAddr.IsPlain

end Reply

/-! ## Exactness of a codec -/

section Exact

variable {S : Sig} {α : Type}

/--
Encoder and reader of one message type fit together. `normalise` says how an encoding may
differ from the bytes it was read from; streams that `excluded` describes are left out.
-/
structure CodecExact (readFrom : Reader S α) (encode : α → Except ProtocolError Bytes)
    (WellFormed : α → Prop) (normalise : Bytes → Bytes) (excluded : Bytes → Prop) : Prop where
  /-- However a message is cut into pieces, it is complete with its last byte. -/
  feeds : ∀ m, WellFormed m → ∃ bytes, encode m = .ok bytes ∧
    readFrom.run.feed bytes = some (.done (.ok m))
  /-- A message is read back and nothing behind it is touched. -/
  roundTrip : ∀ m, WellFormed m → ∃ bytes, encode m = .ok bytes ∧
    ∀ rest, Accepts readFrom (bytes ++ rest) m rest
  /-- A strict prefix followed by EOF is an I/O error. -/
  truncated : ∀ m, WellFormed m → ∀ c d, encode m = .ok (c ++ d) → d ≠ [] →
    ∃ e, readFrom.run.decode c = (.done (.error (.io e)), [])
  /-- What was accepted is what the encoder writes. -/
  canonical : ∀ input m rest, Accepts readFrom input m rest →
    ∃ consumed, input = consumed ++ rest ∧
      (¬ excluded consumed → encode m = .ok (normalise consumed))

/-- A codec is exact when it reads what it writes and accepts nothing else. -/
theorem codecExact_of {readFrom : Reader S α} {encode : α → Except ProtocolError Bytes}
    {WellFormed : α → Prop} {normalise : Bytes → Bytes} {excluded : Bytes → Prop}
    (hfeed : ∀ m, WellFormed m →
      ∃ bytes, encode m = .ok bytes ∧ readFrom.run.feed bytes = some (.done (.ok m)))
    (hon : HandsOnIo readFrom)
    (hacc : ∀ input m rest, Accepts readFrom input m rest →
      ∃ consumed, input = consumed ++ rest ∧
        (¬ excluded consumed → encode m = .ok (normalise consumed))) :
    CodecExact readFrom encode WellFormed normalise excluded where
  feeds := hfeed
  roundTrip m hm := by
    obtain ⟨bytes, henc, hread⟩ := hfeed m hm
    exact ⟨bytes, henc, fun rest => Task.decode_of_feed rest hread⟩
  truncated m hm c d henc hd := by
    obtain ⟨bytes, henc', hread⟩ := hfeed m hm
    obtain rfl : c ++ d = bytes := Except.ok.inj (henc.symm.trans henc')
    exact ⟨.earlyEof, Task.decode_truncated hon hread hd⟩
  canonical := hacc

end Exact

/-! ## Domains -/

theorem mem_map_ofNat {l : List Nat} (hl : ∀ n ∈ l, n < 256) (b : UInt8) :
    b ∈ l.map UInt8.ofNat ↔ b.toNat ∈ l := by
  rw [List.mem_map]
  constructor
  · rintro ⟨n, hn, rfl⟩
    rw [UInt8.toNat_ofNat', Nat.mod_eq_of_lt (hl n hn)]
    exact hn
  · intro h
    exact ⟨b.toNat, h, UInt8.ofNat_toNat⟩

/-- The bytes of `DOMAIN_ALPHABET`. -/
theorem isDomainByte_iff (b : UInt8) : isDomainByte b = true ↔ b ∈ domainAlphabet := by
  rw [domainAlphabet, mem_map_ofNat (by decide)]
  -- both sides are the same intervals of the value
  simp only [isDomainByte, isAsciiAlphanumeric, Bool.or_eq_true, Bool.and_eq_true,
    decide_eq_true_eq, beq_iff_eq, UInt8.le_iff_toNat_le, ← UInt8.toNat_inj, List.mem_append,
    List.mem_range'_1, List.mem_cons, List.not_mem_nil, or_false, UInt8.reduceToNat]
  omega

theorem toNat_lt_of_isDomainByte {b : UInt8} (h : isDomainByte b = true) : b.toNat < 128 := by
  have hall : ∀ n : Fin 256, isDomainByte (UInt8.ofFin n) = true → n.val < 128 := by
    decide +kernel
  exact hall b.toFin h

/-- The check of `parse_domain` that comes before `from_utf8`. -/
theorem fromUtf8_ne_none {raw : Bytes} (h : raw.all isDomainByte = true) : fromUtf8 raw ≠ none := by
  have hascii : ∀ b ∈ raw, b.toNat < 128 := fun b hb =>
    toNat_lt_of_isDomainByte (List.all_eq_true.mp h b hb)
  unfold fromUtf8 String.fromUTF8?
  rw [dif_pos (isValidUTF8_of_ascii hascii)]
  simp

/-- The validity test of `parse_domain` is the alphabet of the specification. -/
theorem domain_valid_iff (raw : Bytes) :
    (!raw.isEmpty && raw.all isDomainByte) = true ↔
      raw ≠ [] ∧ ∀ b ∈ raw, b ∈ domainAlphabet := by
  simp [isDomainByte_iff]

/-- A domain is accepted exactly when it is not empty and has only allowed bytes. -/
theorem parseDomain_ok_iff {raw : Bytes} {host : String} :
    parseDomain raw = .ok host ↔
      strBytes host = raw ∧ raw ≠ [] ∧ ∀ b ∈ raw, b ∈ domainAlphabet := by
  rw [← domain_valid_iff]
  unfold parseDomain
  cases hv : !raw.isEmpty && raw.all isDomainByte with
  | false => simp
  | true =>
    have hne := fromUtf8_ne_none (Bool.and_eq_true_iff.mp hv).2
    obtain ⟨host', hutf⟩ := Option.ne_none_iff_exists'.mp hne
    have hraw := strBytes_fromUtf8 hutf
    rw [hutf]
    simp only [Bool.not_true, Bool.false_eq_true, if_false, Except.ok.injEq, and_true]
    refine ⟨fun h => h ▸ hraw, ?_⟩
    intro h
    rw [← h, fromUtf8_strBytes] at hutf
    exact (Option.some.inj hutf).symm

/-! ## Socket addresses -/

/-- The address part of an encoded socket address, behind its `ATYP` byte. -/
def addrOctets : SocketAddr → Bytes
  | .v4 ip _ => ip.octets
  | .v6 ip _ _ _ => ip.octets

def addrType : SocketAddr → UInt8
  | .v4 _ _ => atypIpv4
  | .v6 _ _ _ _ => atypIpv6

/-- What an address looks like on the wire. -/
theorem pushSocketAddr_eq (out : Bytes) (addr : SocketAddr) :
    pushSocketAddr out addr = out ++ addrType addr :: (addrOctets addr ++ portBytes addr.port) := by
  cases addr <;> simp [pushSocketAddr, addrType, addrOctets]

/-- `SocketAddr::new` sets neither flow label nor scope id. -/
theorem isPlain_new (ip : IpAddr) (port : UInt16) : (SocketAddr.new ip port).IsPlain := by
  cases ip <;> rfl

/-! ## Targets -/

section Target

variable {S : Sig} {α : Type}

theorem readFrom_ipv4 : TargetAddr.readFrom (S := S) atypIpv4 = (do
    let octets ← readBytes 4
    let port ← readU16
    return .ip (.new (.v4 (.ofOctets octets)) port)) := rfl

theorem readFrom_ipv6 : TargetAddr.readFrom (S := S) atypIpv6 = (do
    let octets ← readBytes 16
    let port ← readU16
    return .ip (.new (.v6 (.ofOctets octets)) port)) := rfl

theorem readFrom_domain : TargetAddr.readFrom (S := S) atypDomain = (do
    let raw ← readU8Prefixed
    let port ← readU16
    match parseDomain raw with
    | .ok host => return .domain host port
    | .error e => throw e) := rfl

/-- The address type decides which of the readers runs. -/
theorem readFrom_cases (atyp : UInt8) :
    atyp = atypIpv4 ∨ atyp = atypIpv6 ∨ atyp = atypDomain ∨
      TargetAddr.readFrom (S := S) atyp = throw (.unsupportedAddressType atyp) := by
  by_cases h4 : atyp = atypIpv4
  · exact .inl h4
  by_cases h6 : atyp = atypIpv6
  · exact .inr (.inl h6)
  by_cases hd : atyp = atypDomain
  · exact .inr (.inr (.inl hd))
  refine .inr (.inr (.inr ?_))
  unfold TargetAddr.readFrom
  rw [if_neg h4, if_neg h6, if_neg hd]

/-- An address that was written is read back. -/
theorem feed_readFrom_addr_bind {addr : SocketAddr} (h : addr.IsPlain)
    (f : TargetAddr → Reader S α) (d : Bytes) :
    (TargetAddr.readFrom (addrType addr) >>= f).run.feed
        (addrOctets addr ++ portBytes addr.port ++ d) = (f (.ip addr)).run.feed d := by
  cases addr with
  | v4 ip port =>
    simp only [addrType, addrOctets, readFrom_ipv4, bind_assoc, pure_bind, List.append_assoc]
    rw [feed_readBytes_bind ip.length_octets, feed_readU16_bind, Ipv4Addr.ofOctets_octets]
    rfl
  | v6 ip port flowinfo scopeId =>
    rw [h]
    simp only [addrType, addrOctets, SocketAddr.new, SocketAddr.ip, SocketAddr.port,
      readFrom_ipv6, bind_assoc, pure_bind, List.append_assoc]
    rw [feed_readBytes_bind ip.length_octets, feed_readU16_bind, Ipv6Addr.ofOctets_octets]

/-- A domain that was written is read back. -/
theorem feed_readFrom_domain_bind {host : String} {port : UInt16}
    (h : (TargetAddr.domain host port).WellFormed) (f : TargetAddr → Reader S α) (d : Bytes) :
    (TargetAddr.readFrom atypDomain >>= f).run.feed
        (UInt8.ofNat (strBytes host).length :: strBytes host ++ (portBytes port ++ d)) =
      (f (.domain host port)).run.feed d := by
  obtain ⟨h1, h2, h3⟩ := h
  have hparse : parseDomain (strBytes host) = .ok host :=
    parseDomain_ok_iff.mpr ⟨rfl, by intro h; simp [h] at h1, h3⟩
  simp only [readFrom_domain, bind_assoc]
  rw [feed_readU8Prefixed_bind h2, feed_readU16_bind, hparse, pure_bind]

/-- What a domain looks like on the wire. -/
theorem encodeInto_domain {host : String} (h : (strBytes host).length ≤ 255) (port : UInt16)
    (out : Bytes) : (TargetAddr.domain host port).encodeInto out = .ok (out ++ atypDomain ::
      (UInt8.ofNat (strBytes host).length :: strBytes host ++ portBytes port)) := by
  simp only [TargetAddr.encodeInto, pushU8Prefixed_ok h]
  simp [bind, Except.bind, pure, Except.pure]

/-- The encoding of a target, behind the bytes that are already there. -/
theorem encodeInto_feed {target : TargetAddr} (h : target.WellFormed) :
    ∃ atyp bytes, (∀ out, target.encodeInto out = .ok (out ++ atyp :: bytes)) ∧
      ∀ (f : TargetAddr → Reader S α) (d : Bytes),
        (TargetAddr.readFrom atyp >>= f).run.feed (bytes ++ d) = (f target).run.feed d := by
  cases target with
  | ip addr =>
    refine ⟨addrType addr, addrOctets addr ++ portBytes addr.port, ?_,
      feed_readFrom_addr_bind h⟩
    intro out
    rw [TargetAddr.encodeInto, pushSocketAddr_eq]
  | domain host port =>
    refine ⟨atypDomain, UInt8.ofNat (strBytes host).length :: strBytes host ++ portBytes port,
      encodeInto_domain h.2.1 port, ?_⟩
    intro f d
    rw [List.append_assoc]
    exact feed_readFrom_domain_bind h f d

theorem handsOn_readFrom_bind {atyp : UInt8} {f : TargetAddr → Reader S α}
    (h : ∀ target, HandsOnIo (f target)) : HandsOnIo (TargetAddr.readFrom atyp >>= f) := by
  rcases readFrom_cases (S := S) atyp with rfl | rfl | rfl | hthrow
  · simp only [readFrom_ipv4, bind_assoc, pure_bind]
    exact handsOn_readBytes_bind fun _ => handsOn_readU16_bind fun _ => h _
  · simp only [readFrom_ipv6, bind_assoc, pure_bind]
    exact handsOn_readBytes_bind fun _ => handsOn_readU16_bind fun _ => h _
  · simp only [readFrom_domain, bind_assoc]
    refine handsOn_readU8Prefixed_bind fun raw => handsOn_readU16_bind fun port => ?_
    cases parseDomain raw with
    | error e => exact handsOn_throw e
    | ok host => rw [pure_bind]; exact h _
  · rw [hthrow]
    exact handsOn_throw _

/-- What a reader has seen when it got a target: its encoding. -/
theorem accepts_readFrom_bind {atyp : UInt8} {f : TargetAddr → Reader S α} {m : α}
    {input rest : Bytes} (h : Accepts (TargetAddr.readFrom atyp >>= f) input m rest) :
    ∃ target bytes tail, input = bytes ++ tail ∧
      (∀ out, target.encodeInto out = .ok (out ++ atyp :: bytes)) ∧ target.WellFormed ∧
      Accepts (f target) tail m rest := by
  rcases readFrom_cases (S := S) atyp with rfl | rfl | rfl | hthrow
  · simp only [readFrom_ipv4, bind_assoc, pure_bind] at h
    obtain ⟨octets, tail, rfl, hlen, h⟩ := accepts_readBytes_bind h
    obtain ⟨port, tail, rfl, hf⟩ := accepts_readU16_bind h
    refine ⟨.ip (.new (.v4 (.ofOctets octets)) port), octets ++ portBytes port, tail, by simp,
      ?_, isPlain_new _ _, hf⟩
    intro out
    simp [TargetAddr.encodeInto, pushSocketAddr, SocketAddr.new, SocketAddr.port,
      Ipv4Addr.octets_ofOctets hlen]
  · simp only [readFrom_ipv6, bind_assoc, pure_bind] at h
    obtain ⟨octets, tail, rfl, hlen, h⟩ := accepts_readBytes_bind h
    obtain ⟨port, tail, rfl, hf⟩ := accepts_readU16_bind h
    refine ⟨.ip (.new (.v6 (.ofOctets octets)) port), octets ++ portBytes port, tail, by simp,
      ?_, isPlain_new _ _, hf⟩
    intro out
    simp [TargetAddr.encodeInto, pushSocketAddr, SocketAddr.new, SocketAddr.port,
      Ipv6Addr.octets_ofOctets hlen]
  · simp only [readFrom_domain, bind_assoc] at h
    obtain ⟨raw, tail, hlen, hin, h⟩ := accepts_readU8Prefixed_bind h
    obtain ⟨port, tail, rfl, hf⟩ := accepts_readU16_bind h
    cases hp : parseDomain raw with
    | error e =>
      rw [hp] at hf
      exact absurd hf not_accepts_throw
    | ok host =>
      rw [hp, pure_bind] at hf
      obtain ⟨rfl, hne, hall⟩ := parseDomain_ok_iff.mp hp
      exact ⟨.domain host port, _, tail, hin.trans (List.append_assoc _ _ _).symm,
        encodeInto_domain hlen port, ⟨List.length_pos_iff.mpr hne, hlen, hall⟩, hf⟩
  · rw [hthrow] at h
    exact absurd h not_accepts_throw

end Target

/-! ## Command and reply codes -/

/-- Every byte is that of its command. -/
theorem Command.asByte_fromByte (b : UInt8) : (Command.fromByte b).asByte = b := by
  unfold Command.fromByte
  split
  · next h => exact h.symm
  split
  · next h => exact h.symm
  split
  · next h => exact h.symm
  · rfl

/-- Every byte is that of its reply code. -/
theorem ReplyCode.asByte_fromByte (b : UInt8) : (ReplyCode.fromByte b).asByte = b := by
  have h : ∀ n : Fin 256, (ReplyCode.fromByte (UInt8.ofFin n)).asByte = UInt8.ofFin n := by
    decide +kernel
  exact h b.toFin

/-- A command in the image of `from_byte` is the one its byte stands for. -/
theorem Command.fromByte_asByte {c : Command} (h : ∃ b, fromByte b = c) :
    fromByte c.asByte = c := by
  obtain ⟨b, rfl⟩ := h
  rw [asByte_fromByte]

/-- A code that can be read is read back. -/
theorem ReplyCode.fromByte_asByte {c : ReplyCode} (h : ∃ b, fromByte b = c) :
    fromByte c.asByte = c := by
  obtain ⟨b, rfl⟩ := h
  rw [asByte_fromByte]

/-! ## The message types -/

section Codecs

variable {S : Sig}

/-- The reserved byte of requests and replies is not kept. -/
def clearReserved (bytes : Bytes) : Bytes := bytes.set 2 0x00

/-- A reply with a domain as bind address. -/
def hasDomain (bytes : Bytes) : Prop := bytes[3]? = some atypDomain

theorem handsOn_greeting : HandsOnIo (Greeting.readFrom (S := S)) := by
  refine handsOn_readU8_bind ?_
  intro version
  split
  · exact handsOn_throw _
  refine handsOn_readU8_bind ?_
  intro count
  split
  · exact handsOn_throw _
  exact handsOn_readBytes_bind fun methods => handsOn_pure _

/-- **The greeting** is exact. -/
theorem greeting_exact :
    CodecExact (Greeting.readFrom (S := S)) Greeting.encode Greeting.WellFormed id
      (fun _ => False) := by
  refine codecExact_of (fun m ⟨h1, h2⟩ => ?_) handsOn_greeting ?_
  · refine ⟨socksVersion :: UInt8.ofNat m.methods.length :: m.methods, ?_, ?_⟩
    · simp only [Greeting.encode, lengthByte_ok h2]
      rfl
    · have hcount : UInt8.ofNat m.methods.length ≠ 0 := by
        intro h0
        have := toNat_lengthByte h2
        rw [h0] at this
        simp at this
        omega
      unfold Greeting.readFrom
      rw [feed_readU8_bind, if_neg (by simp), feed_readU8_bind, if_neg hcount]
      have hread := feed_readBytes_bind (toNat_lengthByte h2).symm
        (fun methods => (pure { methods } : Reader S Greeting)) []
      rw [List.append_nil] at hread
      rw [hread]
      rfl
  · intro input m rest h
    unfold Greeting.readFrom at h
    obtain ⟨version, tail, rfl, h₁⟩ := accepts_readU8_bind h
    split at h₁
    · exact absurd h₁ not_accepts_throw
    next hv =>
    obtain ⟨count, tail, rfl, h₂⟩ := accepts_readU8_bind h₁
    split at h₂
    · exact absurd h₂ not_accepts_throw
    obtain ⟨methods, tail, rfl, hlen, h₃⟩ := accepts_readBytes_bind h₂
    obtain ⟨rfl, rfl⟩ := accepts_pure.mp h₃
    refine ⟨version :: count :: methods, rfl, ?_⟩
    intro _
    have hle : methods.length ≤ 255 := by
      have := count.toNat_lt
      omega
    simp only [Greeting.encode, lengthByte_ok hle, hlen, UInt8.ofNat_toNat, not_not.mp hv]
    rfl

/-- **The method selection** is exact. -/
theorem methodSelection_exact :
    CodecExact (MethodSelection.readFrom (S := S)) (fun m => .ok m.encode) (fun _ => True) id
      (fun _ => False) := by
  refine codecExact_of (fun m _ => ⟨_, rfl, ?_⟩) ?_ ?_
  · unfold MethodSelection.readFrom MethodSelection.encode
    rw [feed_readU8_bind, if_neg (by simp), feed_readU8_bind]
    rfl
  · refine handsOn_readU8_bind ?_
    intro version
    split
    · exact handsOn_throw _
    exact handsOn_readU8_bind fun method => handsOn_pure _
  · intro input m rest h
    unfold MethodSelection.readFrom at h
    obtain ⟨version, tail, rfl, h₁⟩ := accepts_readU8_bind h
    split at h₁
    · exact absurd h₁ not_accepts_throw
    next hv =>
    obtain ⟨method, tail, rfl, h₂⟩ := accepts_readU8_bind h₁
    obtain ⟨rfl, rfl⟩ := accepts_pure.mp h₂
    exact ⟨[version, method], rfl, fun _ => by rw [not_not.mp hv]; rfl⟩

theorem handsOn_userPassRequest : HandsOnIo (UserPassRequest.readFrom (S := S)) := by
  refine handsOn_readU8_bind ?_
  intro version
  split
  · exact handsOn_throw _
  exact handsOn_readU8Prefixed_bind fun username =>
    handsOn_readU8Prefixed_bind fun password => handsOn_pure _

/-- What credentials look like on the wire. -/
theorem encode_userPassRequest {m : UserPassRequest} (h : m.WellFormed) :
    m.encode = .ok (authVersion :: (UInt8.ofNat m.username.length :: m.username ++
      (UInt8.ofNat m.password.length :: m.password))) := by
  simp only [UserPassRequest.encode, pushU8Prefixed_ok h.1]
  show pushU8Prefixed _ _ = _
  rw [pushU8Prefixed_ok h.2]
  simp

/-- **The credentials** are exact. -/
theorem userPassRequest_exact :
    CodecExact (UserPassRequest.readFrom (S := S)) UserPassRequest.encode
      UserPassRequest.WellFormed id (fun _ => False) := by
  refine codecExact_of (fun m hm => ⟨_, encode_userPassRequest hm, ?_⟩) handsOn_userPassRequest
    ?_
  · unfold UserPassRequest.readFrom
    rw [feed_readU8_bind, if_neg (by simp), feed_readU8Prefixed_bind hm.1]
    have hread := feed_readU8Prefixed_bind hm.2
      (fun password => (pure ⟨m.username, password⟩ : Reader S UserPassRequest)) []
    rw [List.append_nil] at hread
    rw [hread]
    rfl
  · intro input m rest h
    unfold UserPassRequest.readFrom at h
    obtain ⟨version, tail, rfl, h₁⟩ := accepts_readU8_bind h
    split at h₁
    · exact absurd h₁ not_accepts_throw
    next hv =>
    obtain ⟨username, tail, hu, rfl, h₂⟩ := accepts_readU8Prefixed_bind h₁
    obtain ⟨password, tail, hp, rfl, h₃⟩ := accepts_readU8Prefixed_bind h₂
    obtain ⟨rfl, rfl⟩ := accepts_pure.mp h₃
    refine ⟨version :: (UInt8.ofNat username.length :: username ++
      (UInt8.ofNat password.length :: password)), by simp, ?_⟩
    intro _
    rw [encode_userPassRequest ⟨hu, hp⟩, not_not.mp hv]
    rfl

/-- **The answer to credentials** is exact. -/
theorem userPassResponse_exact :
    CodecExact (UserPassResponse.readFrom (S := S)) (fun m => .ok m.encode) (fun _ => True) id
      (fun _ => False) := by
  refine codecExact_of (fun m _ => ⟨_, rfl, ?_⟩) ?_ ?_
  · unfold UserPassResponse.readFrom UserPassResponse.encode
    rw [feed_readU8_bind, if_neg (by simp), feed_readU8_bind]
    rfl
  · refine handsOn_readU8_bind ?_
    intro version
    split
    · exact handsOn_throw _
    exact handsOn_readU8_bind fun status => handsOn_pure _
  · intro input m rest h
    unfold UserPassResponse.readFrom at h
    obtain ⟨version, tail, rfl, h₁⟩ := accepts_readU8_bind h
    split at h₁
    · exact absurd h₁ not_accepts_throw
    next hv =>
    obtain ⟨status, tail, rfl, h₂⟩ := accepts_readU8_bind h₁
    obtain ⟨rfl, rfl⟩ := accepts_pure.mp h₂
    exact ⟨[version, status], rfl, fun _ => by rw [not_not.mp hv]; rfl⟩

/-! ### Requests and replies

Both are a header of four bytes and an address.
-/

/-- Four bytes of header. -/
theorem length_four {header : Bytes} (h : header.length = 4) :
    ∃ a b c d, header = [a, b, c, d] := by
  match header, h with
  | [a, b, c, d], _ => exact ⟨a, b, c, d, rfl⟩

/-- A request that was written is read back. -/
theorem feed_request {m : Request} (h : m.WellFormed) :
    ∃ bytes, m.encode = .ok bytes ∧
      (Request.readFrom (S := S)).run.feed bytes = some (.done (.ok m)) := by
  obtain ⟨atyp, bytes, henc, hread⟩ := encodeInto_feed (S := S) (α := Request) h.2
  refine ⟨_, henc _, ?_⟩
  have hhead : [socksVersion, m.command.asByte, 0x00] ++ atyp :: bytes =
      [socksVersion, m.command.asByte, 0x00, atyp] ++ (bytes ++ []) := by simp
  rw [hhead]
  unfold Request.readFrom
  rw [feed_readBytes_bind (n := 4) rfl]
  dsimp only
  rw [if_neg (by simp)]
  refine (hread _ []).trans ?_
  show some (Task.done (Except.ok (Request.mk (.fromByte m.command.asByte) m.target))) = _
  rw [Command.fromByte_asByte h.1]

theorem handsOn_request : HandsOnIo (Request.readFrom (S := S)) := by
  refine handsOn_readBytes_bind ?_
  intro header
  dsimp only
  split
  · exact handsOn_throw _
  exact handsOn_readFrom_bind fun target => handsOn_pure _

/-- An accepted request, byte by byte. -/
theorem accepts_request {input rest : Bytes} {m : Request}
    (h : Accepts (Request.readFrom (S := S)) input m rest) :
    ∃ reserved atyp bytes,
      input = [socksVersion, m.command.asByte, reserved, atyp] ++ bytes ++ rest ∧
      (∀ out, m.target.encodeInto out = .ok (out ++ atyp :: bytes)) ∧ m.target.WellFormed := by
  unfold Request.readFrom at h
  obtain ⟨header, tail, rfl, hlen, h₁⟩ := accepts_readBytes_bind h
  obtain ⟨version, command, reserved, atyp, rfl⟩ := length_four hlen
  dsimp only at h₁
  split at h₁
  · exact absurd h₁ not_accepts_throw
  next hv =>
  obtain ⟨target, bytes, tail, rfl, henc, hwf, h₂⟩ := accepts_readFrom_bind h₁
  obtain ⟨rfl, rfl⟩ := accepts_pure.mp h₂
  refine ⟨reserved, atyp, bytes, ?_, henc, hwf⟩
  have hv' : version = socksVersion := not_not.mp hv
  simp [Command.asByte_fromByte, hv']

/-- **The request** is exact, up to its reserved byte. -/
theorem request_exact :
    CodecExact (Request.readFrom (S := S)) Request.encode Request.WellFormed clearReserved
      (fun _ => False) := by
  refine codecExact_of (fun m hm => feed_request hm) handsOn_request ?_
  intro input m rest h
  obtain ⟨reserved, atyp, bytes, rfl, henc, -⟩ := accepts_request h
  exact ⟨_, rfl, fun _ => henc _⟩

/-- **The reply** is exact, up to its reserved byte. -/
theorem reply_exact :
    CodecExact (Reply.readFrom (S := S)) (fun m => .ok m.encode) Reply.WellFormed clearReserved
      hasDomain := by
  refine codecExact_of (fun m hm => ⟨_, rfl, ?_⟩) ?_ ?_
  · have hhead : m.encode = [socksVersion, m.code.asByte, 0x00, addrType m.bindAddr] ++
        (addrOctets m.bindAddr ++ portBytes m.bindAddr.port ++ []) := by
      simp [Reply.encode, pushSocketAddr_eq]
    rw [hhead]
    unfold Reply.readFrom
    rw [feed_readBytes_bind (n := 4) rfl]
    dsimp only
    rw [if_neg (by simp)]
    refine (feed_readFrom_addr_bind hm.2 _ []).trans ?_
    show some (Task.done (Except.ok (Reply.mk (.fromByte m.code.asByte) m.bindAddr))) = _
    rw [ReplyCode.fromByte_asByte hm.1]
  · refine handsOn_readBytes_bind ?_
    intro header
    dsimp only
    split
    · exact handsOn_throw _
    exact handsOn_readFrom_bind fun target => handsOn_pure _
  · intro input m rest h
    unfold Reply.readFrom at h
    obtain ⟨header, tail, rfl, hlen, h₁⟩ := accepts_readBytes_bind h
    obtain ⟨version, code, reserved, atyp, rfl⟩ := length_four hlen
    dsimp only at h₁
    split at h₁
    · exact absurd h₁ not_accepts_throw
    next hv =>
    obtain ⟨target, bytes, tail, rfl, henc, hwf, h₂⟩ := accepts_readFrom_bind h₁
    obtain ⟨rfl, rfl⟩ := accepts_pure.mp h₂
    refine ⟨version :: code :: reserved :: atyp :: bytes, by simp, ?_⟩
    intro hdom
    have hv' : version = socksVersion := not_not.mp hv
    cases target with
    | ip addr =>
      have haddr := henc [socksVersion, code, 0x00]
      simp only [TargetAddr.encodeInto] at haddr
      simp only [Reply.encode, ReplyCode.asByte_fromByte, List.getD_cons_succ, List.getD_cons_zero,
        haddr, hv']
      rfl
    | domain host port =>
      -- the bind address is not kept; the address type tells that the reply had a domain
      refine absurd ?_ hdom
      have hd := Except.ok.inj ((encodeInto_domain hwf.2.1 port []).symm.trans (henc []))
      rw [List.nil_append, List.nil_append, List.cons.injEq] at hd
      simp [hasDomain, hd.1]

end Codecs

/-! ## All message types -/

/--
**Encoders and readers are exact.** Every well-formed message of the six types is read back
and leaves what follows it, a truncated one is an I/O error, and an accepted stream is the
encoding of what was read. A domain is the received field, byte for byte.
-/
theorem codecs_exact {S : Sig} :
    CodecExact (Greeting.readFrom (S := S)) Greeting.encode Greeting.WellFormed id
      (fun _ => False) ∧
    CodecExact (MethodSelection.readFrom (S := S)) (fun m => .ok m.encode) (fun _ => True) id
      (fun _ => False) ∧
    CodecExact (UserPassRequest.readFrom (S := S)) UserPassRequest.encode
      UserPassRequest.WellFormed id (fun _ => False) ∧
    CodecExact (UserPassResponse.readFrom (S := S)) (fun m => .ok m.encode) (fun _ => True) id
      (fun _ => False) ∧
    CodecExact (Request.readFrom (S := S)) Request.encode Request.WellFormed clearReserved
      (fun _ => False) ∧
    CodecExact (Reply.readFrom (S := S)) (fun m => .ok m.encode) Reply.WellFormed clearReserved
      hasDomain ∧
    (∀ input command host port rest,
      Accepts (Request.readFrom (S := S)) input ⟨command, .domain host port⟩ rest →
      ∃ reserved, input = [socksVersion, command.asByte, reserved, atypDomain,
          UInt8.ofNat (strBytes host).length] ++ strBytes host ++ portBytes port ++ rest ∧
        ∀ b ∈ strBytes host, b ∈ domainAlphabet) ∧
    ∀ raw : Bytes, (!raw.isEmpty && raw.all isDomainByte) = true → fromUtf8 raw ≠ none := by
  refine ⟨greeting_exact, methodSelection_exact, userPassRequest_exact, userPassResponse_exact,
    request_exact, reply_exact, ?_, fun raw h => fromUtf8_ne_none (Bool.and_eq_true_iff.mp h).2⟩
  intro input command host port rest h
  obtain ⟨reserved, atyp, bytes, rfl, henc, hwf⟩ := accepts_request h
  refine ⟨reserved, ?_, hwf.2.2⟩
  have hd := Except.ok.inj ((encodeInto_domain hwf.2.1 port []).symm.trans (henc []))
  rw [List.nil_append, List.nil_append, List.cons.injEq] at hd
  simp [← hd.1, ← hd.2]

end SocksServer
