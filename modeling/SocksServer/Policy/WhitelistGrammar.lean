import SocksServer.Policy.IpLiteral

/-!
# The grammar of `internal_whitelist`

Which texts are whitelist entries, and what they mean. The code tells the forms apart by the
first bracket and the first colon; the grammar says it by the form of the whole text, and no
text has two forms.

* `IsNet`, `IsPorts`, `Reading` : the grammar
* `whitelist_grammar` : `from_str` reads the grammar, and `to_string` writes it
-/

namespace SocksServer

open Infra Text

/-! ## Grammar -/

section Grammar

variable (std : IpText)

/-- `NET`: an IP literal with an optional `/n`, and white space around the whole. -/
inductive IsNet : Str → IpAddr → UInt8 → Prop
  | host {s lit : Str} {addr : IpAddr} (hs : Around lit s) (hlit : std.fromStr lit = some addr) :
    IsNet s addr (UInt8.ofNat addr.maxPrefix)
  | net {s lit bits : Str} {addr : IpAddr} {n : UInt8} (hs : Around (lit ++ '/' :: bits) s)
    (hlit : std.fromStr lit = some addr) (hbits : parseU8 bits = some n)
    (hn : n.toNat ≤ addr.maxPrefix) : IsNet s addr n

/-- A port number other than 0, and white space around it. -/
def IsPort (s : Str) (port : UInt16) : Prop :=
  port ≠ 0 ∧ ∃ core, Around core s ∧ parseU16 core = some port

/-- `PORTS`: a port or a range of ports. -/
inductive IsPorts : Str → UInt16 → UInt16 → Prop
  | one {s : Str} {q : UInt16} (h : IsPort s q) : IsPorts s q q
  | range {s t : Str} {q r : UInt16} (hs : IsPort s q) (ht : IsPort t r) (h : q ≤ r) :
    IsPorts (s ++ '-' :: t) q r

inductive EntryShape where
  | net
  | net4Ports
  | bracketed
  | bracketedPorts
  deriving DecidableEq

/-- A text without white space around it as an entry: its form, its network and its ports. -/
inductive Reading : EntryShape → Str → IpAddr → UInt8 → Option (UInt16 × UInt16) → Prop
  | net {s : Str} {addr : IpAddr} {n : UInt8} (h : IsNet std s addr n) :
    Reading .net s addr n none
  | net4Ports {s t : Str} {ip : Ipv4Addr} {n : UInt8} {q r : UInt16}
    (h : IsNet std s (.v4 ip) n) (hports : IsPorts t q r) :
    Reading .net4Ports (s ++ ':' :: t) (.v4 ip) n (some (q, r))
  | bracketed {s : Str} {addr : IpAddr} {n : UInt8} (h : IsNet std s addr n) :
    Reading .bracketed ('[' :: s ++ [']']) addr n none
  | bracketedPorts {s t : Str} {addr : IpAddr} {n : UInt8} {q r : UInt16}
    (h : IsNet std s addr n) (hports : IsPorts t q r) :
    Reading .bracketedPorts ('[' :: s ++ ']' :: ':' :: t) addr n (some (q, r))

end Grammar

/-- The first and the last port. -/
def PortRange.bounds (ports : PortRange) : UInt16 × UInt16 := (ports.first, ports.last)

/-! ## Characters -/

/-- The characters the forms are told apart by. -/
def delimiters : Str := ['/', '[', ']', ':', '-']

theorem not_delimiter_of_whitespace {c : Char} (h : isWhitespace c = true) : c ∉ delimiters := by
  intro hc
  simp only [delimiters, List.mem_cons, List.not_mem_nil, or_false] at hc
  rcases hc with rfl | rfl | rfl | rfl | rfl <;> revert h <;> decide

/-- The characters of a number. -/
theorem number_char {max n : Nat} {s : Str} (h : parseUnsigned max s = some n) {c : Char}
    (hc : c ∈ s) : isWhitespace c = false ∧ c ∉ delimiters := by
  rcases mem_of_parseUnsigned h hc with rfl | hdigit
  · decide
  constructor
  · rw [Bool.eq_false_iff]
    intro hspace
    rw [toDigit_of_whitespace 10 hspace] at hdigit
    cases hdigit
  · intro hmem
    simp only [delimiters, List.mem_cons, List.not_mem_nil, or_false] at hmem
    rcases hmem with rfl | rfl | rfl | rfl | rfl <;> revert hdigit <;> decide

/-- A prefix length has neither white space nor delimiters in it. -/
theorem parseU8_char {bits : Str} {n : UInt8} (h : parseU8 bits = some n) {c : Char}
    (hc : c ∈ bits) : isWhitespace c = false ∧ c ∉ delimiters := by
  obtain ⟨m, hm, -⟩ := Option.map_eq_some_iff.mp h
  exact number_char hm hc

/-- The number of a port has neither white space nor delimiters in it. -/
theorem parseU16_char {s : Str} {port : UInt16} (h : parseU16 s = some port) {c : Char}
    (hc : c ∈ s) : isWhitespace c = false ∧ c ∉ delimiters := by
  obtain ⟨m, hm, -⟩ := Option.map_eq_some_iff.mp h
  exact number_char hm hc

theorem IsPort.char {s : Str} {port : UInt16} (h : IsPort s port) {c : Char} (hc : c ∈ s) :
    c ∉ delimiters := by
  obtain ⟨-, core, hs, hcore⟩ := h
  rcases hs.mem hc with hc | hspace
  · exact (parseU16_char hcore hc).2
  · exact not_delimiter_of_whitespace hspace

theorem IsPorts.colon {s : Str} {q r : UInt16} (h : IsPorts s q r) : ':' ∉ s := by
  intro hc
  cases h with
  | one h => exact h.char hc (by decide)
  | range hs ht hle =>
    rcases List.mem_append.mp hc with hc | hc
    · exact hs.char hc (by decide)
    · rcases List.mem_cons.mp hc with hc | hc
      · exact absurd hc (by decide)
      · exact ht.char hc (by decide)

section Net

variable {std : IpText} {s : Str} {addr : IpAddr} {n : UInt8}

/-- The text of a network without the white space around it. -/
theorem IsNet.core (h : IsNet std s addr n) : ∃ lit tail, std.fromStr lit = some addr ∧
    Around (lit ++ tail) s ∧ (tail = [] ∨ ∃ bits, tail = '/' :: bits ∧ parseU8 bits = some n) := by
  cases h with
  | @host lit _ hs hlit => exact ⟨lit, [], hlit, by simpa using hs, .inl rfl⟩
  | @net lit bits _ _ hs hlit hbits hn =>
    exact ⟨lit, '/' :: bits, hlit, hs, .inr ⟨bits, rfl, hbits⟩⟩

/-- A delimiter that the literal does not have is not in the text of a network. -/
theorem IsNet.not_mem_of (h : IsNet std s addr n) {d : Char} (hd : d ∈ delimiters)
    (hslash : d ≠ '/') (hlit : ∀ lit, std.fromStr lit = some addr → d ∉ lit) : d ∉ s := by
  intro hmem
  obtain ⟨lit, tail, hfrom, hs, htail⟩ := h.core
  rcases hs.mem hmem with hmem | hspace
  · rcases List.mem_append.mp hmem with hmem | hmem
    · exact hlit lit hfrom hmem
    · rcases htail with rfl | ⟨bits, rfl, hbits⟩
      · cases hmem
      · rcases List.mem_cons.mp hmem with hmem | hmem
        · exact hslash hmem
        · exact (parseU8_char hbits hmem).2 hd
  · exact not_delimiter_of_whitespace hspace hd

/-- `max_prefix` of `Cidr::from_str`. -/
theorem maxPrefix_eq (addr : IpAddr) :
    (if addr.isIpv4 then 32 else 128 : UInt8) = UInt8.ofNat addr.maxPrefix := by
  cases addr <;> rfl

theorem le_maxPrefix_iff : n ≤ UInt8.ofNat addr.maxPrefix ↔ n.toNat ≤ addr.maxPrefix := by
  rw [UInt8.le_iff_toNat_le]
  cases addr <;> rfl

/-- A network has a prefix that fits its family. -/
theorem IsNet.prefix_le (h : IsNet std s addr n) : n.toNat ≤ addr.maxPrefix := by
  cases h with
  | host hs hlit => cases addr <;> exact Nat.le_of_eq rfl
  | net hs hlit hbits hn => exact hn

/-- `Cidr::new` does not fail on a network of the grammar. -/
theorem IsNet.exists_new (h : IsNet std s addr n) : ∃ cidr, Cidr.new addr n = some cidr := by
  refine Option.ne_none_iff_exists'.mp ?_
  rw [ne_eq, Cidr.new_eq_none]
  have hle := h.prefix_le
  omega

/-- What is accepted as a network is one. -/
theorem isNet_of_fromStr {cidr : Cidr} (h : Cidr.fromStr std s = .ok cidr) :
    ∃ addr n, IsNet std s addr n ∧ Cidr.new addr n = some cidr := by
  have hs := around_trim s
  unfold Cidr.fromStr at h
  dsimp only at h
  cases hsplit : splitOnce '/' (trim s) with
  | none =>
    rw [hsplit] at h
    dsimp only at h
    cases hlit : std.fromStr (trim s) with
    | none =>
      rw [hlit] at h
      cases h
    | some addr =>
      rw [hlit] at h
      dsimp only at h
      rw [maxPrefix_eq] at h
      split at h
      · next hnew =>
        rw [Except.ok.inj h] at hnew
        exact ⟨addr, _, .host hs hlit, hnew⟩
      · cases h
  | some parts =>
    obtain ⟨lit, bits⟩ := parts
    rw [(splitOnce_eq_some.mp hsplit).1] at hs
    rw [hsplit] at h
    dsimp only at h
    cases hlit : std.fromStr lit with
    | none =>
      rw [hlit] at h
      cases h
    | some addr =>
      rw [hlit] at h
      dsimp only at h
      split at h
      · cases h
      · next n hn =>
        obtain ⟨hbits, hle⟩ := Option.filter_eq_some_iff.mp hn
        split at h
        · next hnew =>
          rw [Except.ok.inj h] at hnew
          rw [maxPrefix_eq] at hle
          exact ⟨addr, n, .net hs hlit hbits (le_maxPrefix_iff.mp (by simpa using hle)), hnew⟩
        · cases h

variable (hstd : std.Lawful)
include hstd

theorem net_whitespace {lit bits : Str} (hlit : std.fromStr lit = some addr)
    (hbits : parseU8 bits = some n) : ∀ c ∈ lit ++ '/' :: bits, isWhitespace c = false := by
  intro c hc
  rcases List.mem_append.mp hc with hc | hc
  · exact hstd.whitespace hlit c hc
  · rcases List.mem_cons.mp hc with rfl | hc
    · decide
    · exact (parseU8_char hbits hc).1

theorem IsNet.bracket (h : IsNet std s addr n) : '[' ∉ s ∧ ']' ∉ s := by
  constructor
  · refine h.not_mem_of (by decide) (by decide) ?_
    intro lit hlit hmem
    exact hstd.delimiter hlit _ hmem (by decide)
  · refine h.not_mem_of (by decide) (by decide) ?_
    intro lit hlit hmem
    exact hstd.delimiter hlit _ hmem (by decide)

/-- An IPv4 network has no colon in it. -/
theorem IsNet.v4_colon {ip : Ipv4Addr} (h : IsNet std s (.v4 ip) n) : ':' ∉ s :=
  h.not_mem_of (by decide) (by decide) fun _ hlit => hstd.v4_colon hlit

/-- An IPv6 network has two colons or more. -/
theorem IsNet.v6_colons {ip : Ipv6Addr} (h : IsNet std s (.v6 ip) n) : 2 ≤ s.count ':' := by
  obtain ⟨lit, tail, hlit, ⟨left, right, -, -, rfl⟩, -⟩ := h.core
  have htwo := hstd.v6_colons hlit
  simp only [List.count_append]
  omega

/-- A network without a colon is an IPv4 network. -/
theorem IsNet.isIpv4_of_colon (h : IsNet std s addr n) (hcolon : ':' ∉ s) :
    ∃ ip, addr = .v4 ip := by
  cases addr with
  | v4 ip => exact ⟨ip, rfl⟩
  | v6 ip =>
    have htwo := h.v6_colons hstd
    rw [List.count_eq_zero_of_not_mem hcolon] at htwo
    omega

/-- **A network is accepted**, as the one it is. -/
theorem IsNet.fromStr_eq (h : IsNet std s addr n) {cidr : Cidr}
    (hnew : Cidr.new addr n = some cidr) : Cidr.fromStr std s = .ok cidr := by
  cases h with
  | @host lit _ hs hlit =>
    have hslash : '/' ∉ lit := fun hmem => hstd.delimiter hlit _ hmem (by decide)
    unfold Cidr.fromStr
    dsimp only
    rw [trim_around (hstd.whitespace hlit) hs, splitOnce_eq_none.mpr hslash]
    dsimp only
    rw [hlit]
    dsimp only
    rw [maxPrefix_eq, hnew]
  | @net lit bits _ _ hs hlit hbits hn =>
    have hslash : '/' ∉ lit := fun hmem => hstd.delimiter hlit _ hmem (by decide)
    unfold Cidr.fromStr
    dsimp only
    rw [trim_around (net_whitespace hstd hlit hbits) hs, splitOnce_append hslash]
    dsimp only
    rw [hlit]
    dsimp only
    rw [hbits, Option.filter_some, maxPrefix_eq, if_pos (by simpa using le_maxPrefix_iff.mpr hn)]
    dsimp only
    rw [hnew]

/-- A text is a network in one way. -/
theorem IsNet.unique (h : IsNet std s addr n) {addr' : IpAddr} {n' : UInt8}
    (h' : IsNet std s addr' n') : addr = addr' ∧ n = n' := by
  have hslash : ∀ {lit ip}, std.fromStr lit = some ip → '/' ∉ lit :=
    fun hlit hmem => hstd.delimiter hlit _ hmem (by decide)
  cases h with
  | @host lit _ hs hlit =>
    have htrim := trim_around (hstd.whitespace hlit) hs
    cases h' with
    | @host lit' _ hs' hlit' =>
      rw [trim_around (hstd.whitespace hlit') hs'] at htrim
      rw [htrim, hlit, Option.some.injEq] at hlit'
      subst hlit'
      exact ⟨rfl, rfl⟩
    | @net lit' bits' _ _ hs' hlit' hbits' hn' =>
      rw [trim_around (net_whitespace hstd hlit' hbits') hs'] at htrim
      exact absurd (by rw [← htrim]; simp) (hslash hlit)
  | @net lit bits _ _ hs hlit hbits hn =>
    have htrim := trim_around (net_whitespace hstd hlit hbits) hs
    cases h' with
    | @host lit' _ hs' hlit' =>
      rw [trim_around (hstd.whitespace hlit') hs'] at htrim
      exact absurd (by rw [htrim]; simp) (hslash hlit')
    | @net lit' bits' _ _ hs' hlit' hbits' hn' =>
      rw [trim_around (net_whitespace hstd hlit' hbits') hs'] at htrim
      -- both are what stands before and behind the first slash
      have hsplit := splitOnce_append (hslash hlit) bits
      rw [← htrim, splitOnce_append (hslash hlit')] at hsplit
      obtain ⟨rfl, rfl⟩ := Prod.mk.inj (Option.some.inj hsplit)
      rw [hlit, Option.some.injEq] at hlit'
      rw [hbits, Option.some.injEq] at hbits'
      exact ⟨hlit', hbits'⟩

end Net

/-! ## Ports -/

section Ports

variable {s : Str} {port q r : UInt16}

/-- What is accepted as a port. -/
theorem parsePort_eq_some (value : { port : UInt16 // port ≠ 0 }) :
    PortRange.parsePort s = some value ↔ IsPort s value.val := by
  constructor
  · intro h
    obtain ⟨port, hport, hvalue⟩ := Option.bind_eq_some_iff.mp h
    split at hvalue
    · next hne =>
      rw [← Option.some.inj hvalue]
      exact ⟨hne, trim s, around_trim s, hport⟩
    · cases hvalue
  · rintro ⟨hne, core, hs, hcore⟩
    have htrim : trim s = core := trim_around (fun c hc => (parseU16_char hcore hc).1) hs
    unfold PortRange.parsePort
    rw [htrim, hcore, Option.bind_some, dif_pos hne]

/-- Ports are a range, and not from port 0 on. -/
theorem IsPorts.bounds (h : IsPorts s q r) : q ≠ 0 ∧ q ≤ r := by
  cases h with
  | one h => exact ⟨h.1, UInt16.le_refl _⟩
  | range hs ht hle => exact ⟨hs.1, hle⟩

/-- **Ports are accepted**, as what they are. -/
theorem IsPorts.fromStr_eq (h : IsPorts s q r) (hne : q ≠ 0) (hle : q ≤ r) :
    PortRange.fromStr s = .ok ⟨q, r, hne, hle⟩ := by
  unfold PortRange.fromStr
  cases h with
  | one h =>
    have hdash : '-' ∉ s := fun hmem => h.char hmem (by decide)
    rw [splitOnce_eq_none.mpr hdash, (parsePort_eq_some ⟨q, hne⟩).mpr h]
    exact dif_pos hle
  | @range a b _ _ ha hb hqr =>
    have hdash : '-' ∉ a := fun hmem => ha.char hmem (by decide)
    rw [splitOnce_append hdash]
    dsimp only
    rw [(parsePort_eq_some ⟨q, hne⟩).mpr ha, (parsePort_eq_some ⟨r, hb.1⟩).mpr hb]
    exact dif_pos hle

/-- What is accepted as ports is a port or a range. -/
theorem isPorts_of_fromStr {ports : PortRange} (h : PortRange.fromStr s = .ok ports) :
    IsPorts s ports.first ports.last := by
  unfold PortRange.fromStr at h
  cases hsplit : splitOnce '-' s with
  | none =>
    rw [hsplit] at h
    cases hport : PortRange.parsePort s with
    | none =>
      rw [hport] at h
      cases h
    | some value =>
      rw [hport] at h
      dsimp only at h
      rw [dif_pos (UInt16.le_refl _)] at h
      obtain rfl := Except.ok.inj h
      exact .one ((parsePort_eq_some _).mp hport)
  | some parts =>
    obtain ⟨a, b⟩ := parts
    rw [hsplit] at h
    dsimp only at h
    obtain ⟨rfl, -⟩ := splitOnce_eq_some.mp hsplit
    split at h
    · next first last hfirst hlast =>
      split at h
      · next hle =>
        obtain rfl := Except.ok.inj h
        exact .range ((parsePort_eq_some _).mp hfirst) ((parsePort_eq_some _).mp hlast) hle
      · cases h
    · cases h

/-- A text is a range of ports in one way. -/
theorem IsPorts.unique {q' r' : UInt16} (h : IsPorts s q r) (h' : IsPorts s q' r') :
    q = q' ∧ r = r' := by
  have hq := h.fromStr_eq h.bounds.1 h.bounds.2
  rw [h'.fromStr_eq h'.bounds.1 h'.bounds.2, Except.ok.injEq, PortRange.mk.injEq] at hq
  exact ⟨hq.1.symm, hq.2.symm⟩

end Ports

/-!
## Entries

A reading is what `split` makes of the text, with a network and ports in the grammar.
-/

/-- The form, from whether there is a bracket and whether there are ports. -/
def shapeOf : Bool → Bool → EntryShape
  | false, false => .net
  | false, true => .net4Ports
  | true, false => .bracketed
  | true, true => .bracketedPorts

/-- The text of the ports, if there is one. -/
def IsPortsText : Option Str → Option (UInt16 × UInt16) → Prop
  | none, ports => ports = none
  | some t, ports => ∃ q r, ports = some (q, r) ∧ IsPorts t q r

section Entry

variable {std : IpText} (hstd : std.Lawful) {shape : EntryShape} {text s t : Str} {addr : IpAddr}
  {n : UInt8} {ports : Option (UInt16 × UInt16)}

open InternalWhitelistEntry

/-- The form tells whether there are ports. -/
theorem Reading.isSome_ports (h : Reading std shape text addr n ports) :
    ports.isSome = true ↔ shape = .net4Ports ∨ shape = .bracketedPorts := by
  cases h <;> simp

/-- The ports of a reading are a range. -/
theorem Reading.exists_ports (h : Reading std shape text addr n ports) :
    ∃ range : Option PortRange, range.map PortRange.bounds = ports := by
  cases h with
  | net h => exact ⟨none, rfl⟩
  | bracketed h => exact ⟨none, rfl⟩
  | @net4Ports s t ip _ q r h hports =>
    exact ⟨some ⟨q, r, hports.bounds.1, hports.bounds.2⟩, rfl⟩
  | @bracketedPorts s t _ _ q r h hports =>
    exact ⟨some ⟨q, r, hports.bounds.1, hports.bounds.2⟩, rfl⟩

include hstd

/-- A text without a bracket that is a network of its own. -/
theorem split_net (h : IsNet std s addr n) : split s = some (s, none) := by
  unfold split
  rw [stripPrefix_eq_none (h.bracket hstd).1]
  dsimp only
  split
  · next network rest hsplit =>
    obtain ⟨rfl, hnot⟩ := splitOnce_eq_some.mp hsplit
    -- with one colon there are two, and the second is in the rest
    have hcolon : ':' ∈ rest := by
      cases addr with
      | v4 ip => exact absurd (by simp) (h.v4_colon hstd)
      | v6 ip =>
        have htwo := h.v6_colons hstd
        rw [List.count_append, List.count_eq_zero_of_not_mem hnot, List.count_cons_self] at htwo
        exact List.count_pos_iff.mp (by omega)
    rw [if_neg (by simpa using hcolon)]
  · rfl

/-- An IPv4 network with ports is split at its colon. -/
theorem split_net4Ports {ip : Ipv4Addr} {q r : UInt16} (h : IsNet std s (.v4 ip) n)
    (hports : IsPorts t q r) : split (s ++ ':' :: t) = some (s, some t) ∧
      stripPrefix '[' (s ++ ':' :: t) = none := by
  have hbracket : stripPrefix '[' (s ++ ':' :: t) = none := by
    cases s with
    | nil => rfl
    | cons c s =>
      have hne : '[' ≠ c := fun heq => (h.bracket hstd).1 (heq ▸ List.mem_cons_self)
      exact if_neg hne.symm
  refine ⟨?_, hbracket⟩
  unfold split
  rw [hbracket, splitOnce_append (h.v4_colon hstd)]
  exact if_pos (by simpa using hports.colon)

/-- What is in brackets is split behind them. -/
theorem split_bracketed (h : IsNet std s addr n) (rest : Str) :
    split ('[' :: s ++ ']' :: rest) =
      if rest = [] then some (s, none)
      else (stripPrefix ':' rest).map fun ports => (s, some ports) := by
  unfold split
  rw [List.cons_append, stripPrefix_eq_some.mpr rfl]
  dsimp only
  rw [splitOnce_append (h.bracket hstd).2]

/-- A reading is split into its network and its ports. -/
theorem split_of_reading (h : Reading std shape text addr n ports) :
    ∃ network t, split text = some (network, t) ∧ IsNet std network addr n ∧
      IsPortsText t ports ∧ shape = shapeOf (stripPrefix '[' text).isSome t.isSome := by
  cases h with
  | net h =>
    refine ⟨text, none, split_net hstd h, h, rfl, ?_⟩
    rw [stripPrefix_eq_none (h.bracket hstd).1]
    rfl
  | @net4Ports s t ip _ q r h hports =>
    obtain ⟨hsplit, hbracket⟩ := split_net4Ports hstd h hports
    refine ⟨s, some t, hsplit, h, ⟨q, r, rfl, hports⟩, ?_⟩
    rw [hbracket]
    rfl
  | @bracketed s _ _ h =>
    exact ⟨s, none, (split_bracketed hstd h []).trans (if_pos rfl), h, rfl, rfl⟩
  | @bracketedPorts s t _ _ q r h hports =>
    exact ⟨s, some t, (split_bracketed hstd h (':' :: t)).trans (if_neg (by simp)), h,
      ⟨q, r, rfl, hports⟩, rfl⟩

/-- What is split into a network and ports is a reading. -/
theorem reading_of_split {network : Str} {t : Option Str} (hsplit : split text = some (network, t))
    (hnet : IsNet std network addr n) (hports : IsPortsText t ports) :
    ∃ shape, Reading std shape text addr n ports := by
  unfold split at hsplit
  cases hbracket : stripPrefix '[' text with
  | some bracketed =>
    rw [hbracket] at hsplit
    obtain rfl := stripPrefix_eq_some.mp hbracket
    dsimp only at hsplit
    split at hsplit
    · cases hsplit
    · next s rest hclose =>
      obtain ⟨rfl, -⟩ := splitOnce_eq_some.mp hclose
      split at hsplit
      · next hrest =>
        obtain ⟨rfl, rfl⟩ := Prod.mk.inj (Option.some.inj hsplit)
        obtain rfl : ports = none := hports
        subst hrest
        exact ⟨_, .bracketed hnet⟩
      · obtain ⟨u, hu, heq⟩ := Option.map_eq_some_iff.mp hsplit
        obtain ⟨rfl, rfl⟩ := Prod.mk.inj heq
        obtain rfl := stripPrefix_eq_some.mp hu
        obtain ⟨q, r, rfl, hports⟩ := hports
        exact ⟨_, .bracketedPorts hnet hports⟩
  | none =>
    rw [hbracket] at hsplit
    dsimp only at hsplit
    split at hsplit
    · next s u hcolon =>
      obtain ⟨rfl, hnot⟩ := splitOnce_eq_some.mp hcolon
      split at hsplit
      · obtain ⟨rfl, rfl⟩ := Prod.mk.inj (Option.some.inj hsplit)
        obtain ⟨q, r, rfl, hports⟩ := hports
        obtain ⟨ip, rfl⟩ := hnet.isIpv4_of_colon hstd hnot
        exact ⟨_, .net4Ports hnet hports⟩
      · obtain ⟨rfl, rfl⟩ := Prod.mk.inj (Option.some.inj hsplit)
        obtain rfl : ports = none := hports
        exact ⟨_, .net hnet⟩
    · obtain ⟨rfl, rfl⟩ := Prod.mk.inj (Option.some.inj hsplit)
      obtain rfl : ports = none := hports
      exact ⟨_, .net hnet⟩

/-- No text has two readings. -/
theorem reading_unique (h : Reading std shape text addr n ports) {shape' : EntryShape}
    {addr' : IpAddr} {n' : UInt8} {ports' : Option (UInt16 × UInt16)}
    (h' : Reading std shape' text addr' n' ports') :
    shape = shape' ∧ addr = addr' ∧ n = n' ∧ ports = ports' := by
  obtain ⟨network, t, hsplit, hnet, hports, rfl⟩ := split_of_reading hstd h
  obtain ⟨network', t', hsplit', hnet', hports', rfl⟩ := split_of_reading hstd h'
  rw [hsplit] at hsplit'
  obtain ⟨rfl, rfl⟩ := Prod.mk.inj (Option.some.inj hsplit')
  obtain ⟨rfl, rfl⟩ := hnet.unique hstd hnet'
  refine ⟨rfl, rfl, rfl, ?_⟩
  cases t with
  | none => exact hports.trans hports'.symm
  | some t =>
    obtain ⟨q, r, rfl, hq⟩ := hports
    obtain ⟨q', r', rfl, hq'⟩ := hports'
    obtain ⟨rfl, rfl⟩ := hq.unique hq'
    rfl

/-- `from_str` reads the grammar. -/
theorem fromStr_ok_iff {entry : InternalWhitelistEntry} :
    InternalWhitelistEntry.fromStr std s = .ok entry ↔
      ∃ shape addr n ports, Reading std shape (trim s) addr n ports ∧
        Cidr.new addr n = some entry.network ∧ entry.ports.map PortRange.bounds = ports := by
  constructor
  · intro h
    unfold InternalWhitelistEntry.fromStr at h
    split at h
    · cases h
    next network t hsplit =>
    split at h
    · cases h
    next cidr hcidr =>
    obtain ⟨addr, n, hnet, hnew⟩ := isNet_of_fromStr hcidr
    split at h
    · cases h
    · next ports hports =>
      obtain rfl := Except.ok.inj h
      obtain ⟨u, rfl, hu⟩ := Option.map_eq_some_iff.mp hports
      obtain ⟨shape, hreading⟩ := reading_of_split hstd hsplit hnet
        ⟨ports.first, ports.last, rfl, isPorts_of_fromStr hu⟩
      exact ⟨shape, addr, n, _, hreading, hnew, rfl⟩
    · next hports =>
      obtain rfl := Except.ok.inj h
      obtain rfl := Option.map_eq_none_iff.mp hports
      have hnone : IsPortsText none none := rfl
      obtain ⟨shape, hreading⟩ := reading_of_split hstd hsplit hnet hnone
      exact ⟨shape, addr, n, none, hreading, hnew, rfl⟩
  · rintro ⟨shape, addr, n, ports, hreading, hnew, hports⟩
    obtain ⟨network, t, hsplit, hnet, htext, -⟩ := split_of_reading hstd hreading
    unfold InternalWhitelistEntry.fromStr
    rw [hsplit]
    dsimp only
    rw [hnet.fromStr_eq hstd hnew]
    obtain ⟨cidr, range⟩ := entry
    subst hports
    cases t with
    | none =>
      obtain rfl : range = none := Option.map_eq_none_iff.mp htext
      rfl
    | some t =>
      obtain ⟨q, r, hq, hu⟩ := htext
      obtain ⟨range, rfl, hrange⟩ := Option.map_eq_some_iff.mp hq
      obtain ⟨rfl, rfl⟩ := Prod.mk.inj hrange
      rw [Option.map_some, hu.fromStr_eq range.first_ne_zero range.first_le_last]

theorem Reading.exists_new (h : Reading std shape text addr n ports) :
    ∃ cidr, Cidr.new addr n = some cidr := by
  obtain ⟨network, t, -, hnet, -⟩ := split_of_reading hstd h
  exact hnet.exists_new

end Entry

/-! ## What is printed -/

section Printed

variable {std : IpText} (hstd : std.Lawful)

theorem parseU8_toDigits (n : UInt8) : parseU8 (Nat.toDigits 10 n.toNat) = some n := by
  unfold parseU8
  rw [parseUnsigned_toDigits (Nat.le_of_lt_succ n.toNat_lt), Option.map_some, UInt8.ofNat_toNat]

theorem parseU16_toDigits (n : UInt16) : parseU16 (Nat.toDigits 10 n.toNat) = some n := by
  unfold parseU16
  rw [parseUnsigned_toDigits (Nat.le_of_lt_succ n.toNat_lt), Option.map_some, UInt16.ofNat_toNat]

theorem isPort_toDigits {port : UInt16} (h : port ≠ 0) : IsPort (Nat.toDigits 10 port.toNat) port :=
  ⟨h, _, Around.refl _, parseU16_toDigits port⟩

theorem PortRange.last_ne_zero (ports : PortRange) : ports.last ≠ 0 := by
  intro h
  have hle := UInt16.le_iff_toNat_le.mp ports.first_le_last
  rw [h] at hle
  exact ports.first_ne_zero (UInt16.toNat_inj.mp (Nat.le_zero.mp hle))

/-- Printed ports are ports. -/
theorem isPorts_fmt (ports : PortRange) : IsPorts ports.fmt ports.first ports.last := by
  unfold PortRange.fmt
  split
  · next heq =>
    rw [← heq]
    exact .one (isPort_toDigits ports.first_ne_zero)
  · exact .range (isPort_toDigits ports.first_ne_zero) (isPort_toDigits ports.last_ne_zero)
      ports.first_le_last

theorem whitespace_portRange_fmt (ports : PortRange) :
    ∀ c ∈ ports.fmt, isWhitespace c = false := by
  intro c hc
  unfold PortRange.fmt at hc
  split at hc
  · exact (parseU16_char (parseU16_toDigits _) hc).1
  · rcases List.mem_append.mp hc with hc | hc
    · exact (parseU16_char (parseU16_toDigits _) hc).1
    · rcases List.mem_cons.mp hc with rfl | hc
      · decide
      · exact (parseU16_char (parseU16_toDigits _) hc).1

include hstd

/-- A printed network is a network. -/
theorem isNet_fmt (cidr : Cidr) : IsNet std (cidr.fmt std) cidr.network cidr.prefixLen := by
  refine .net (Around.refl _) (hstd.fromStr_fmt _) (parseU8_toDigits _) ?_
  obtain ⟨network, prefixLen, hnetwork⟩ := cidr
  cases network with
  | v4 ip => exact UInt8.le_iff_toNat_le.mp hnetwork.1
  | v6 ip => exact UInt8.le_iff_toNat_le.mp hnetwork.1

theorem whitespace_cidr_fmt (cidr : Cidr) : ∀ c ∈ cidr.fmt std, isWhitespace c = false :=
  net_whitespace hstd (hstd.fromStr_fmt _) (parseU8_toDigits _)

/-- **A network that was accepted** is printed and read back. -/
theorem cidr_roundtrip {s : Str} {cidr : Cidr} (h : Cidr.fromStr std s = .ok cidr) :
    Cidr.fromStr std (cidr.fmt std) = .ok cidr := by
  obtain ⟨addr, n, -, hnew⟩ := isNet_of_fromStr h
  exact (isNet_fmt hstd cidr).fromStr_eq hstd (Cidr.new_network hnew)

/-- A printed entry is an entry. -/
theorem reading_fmt (entry : InternalWhitelistEntry) :
    ∃ shape, Reading std shape (entry.fmt std) entry.network.network entry.network.prefixLen
      (entry.ports.map PortRange.bounds) := by
  obtain ⟨cidr, ports⟩ := entry
  have hnet := isNet_fmt hstd cidr
  cases ports with
  | none => exact ⟨_, .net hnet⟩
  | some ports =>
    unfold InternalWhitelistEntry.fmt
    dsimp only
    split
    · exact ⟨_, .bracketedPorts hnet (isPorts_fmt ports)⟩
    · next hv4 =>
      obtain ⟨network, prefixLen, hnetwork⟩ := cidr
      cases network with
      | v4 ip => exact ⟨_, .net4Ports hnet (isPorts_fmt ports)⟩
      | v6 ip => exact absurd rfl hv4

theorem whitespace_fmt (entry : InternalWhitelistEntry) :
    ∀ c ∈ entry.fmt std, isWhitespace c = false := by
  intro c hc
  obtain ⟨cidr, ports⟩ := entry
  have hcidr := whitespace_cidr_fmt hstd cidr
  cases ports with
  | none => exact hcidr c hc
  | some ports =>
    have hports := whitespace_portRange_fmt ports
    unfold InternalWhitelistEntry.fmt at hc
    dsimp only at hc
    split at hc
    · simp only [List.cons_append, List.mem_cons, List.mem_append] at hc
      rcases hc with rfl | hc | rfl | rfl | hc
      · decide
      · exact hcidr c hc
      · decide
      · decide
      · exact hports c hc
    · simp only [List.mem_cons, List.mem_append] at hc
      rcases hc with hc | rfl | hc
      · exact hcidr c hc
      · decide
      · exact hports c hc

/-- **An entry that was accepted** is printed and read back. -/
theorem entry_roundtrip {s : Str} {entry : InternalWhitelistEntry}
    (h : InternalWhitelistEntry.fromStr std s = .ok entry) :
    InternalWhitelistEntry.fromStr std (entry.fmt std) = .ok entry := by
  obtain ⟨-, addr, n, -, -, hnew, -⟩ := (fromStr_ok_iff hstd).mp h
  obtain ⟨shape, hreading⟩ := reading_fmt hstd entry
  have htrim : trim (entry.fmt std) = entry.fmt std :=
    trim_around (whitespace_fmt hstd entry) (Around.refl _)
  rw [fromStr_ok_iff hstd, htrim]
  exact ⟨shape, _, _, _, hreading, Cidr.new_network hnew, rfl⟩

end Printed

/--
**The grammar of the whitelist.** `from_str` accepts a text exactly when it reads as an entry
without the white space around it, and no text reads in two ways. The entry has the network of
the literal and its prefix, and the ports that were written: a restriction is never dropped,
and none opens port 0. What is printed of an entry, a network or a range is read back as it was.
-/
theorem whitelist_grammar (std : IpText) (hstd : std.Lawful) :
    (∀ s entry, InternalWhitelistEntry.fromStr std s = .ok entry ↔
      ∃ shape addr n ports, Reading std shape (trim s) addr n ports ∧
        Cidr.new addr n = some entry.network ∧ entry.ports.map PortRange.bounds = ports) ∧
    (∀ s, (∃ entry, InternalWhitelistEntry.fromStr std s = .ok entry) ↔
      ∃ shape addr n ports, Reading std shape (trim s) addr n ports) ∧
    (∀ text shape addr n ports shape' addr' n' ports', Reading std shape text addr n ports →
      Reading std shape' text addr' n' ports' →
        shape = shape' ∧ addr = addr' ∧ n = n' ∧ ports = ports') ∧
    (∀ s entry shape addr n ports, InternalWhitelistEntry.fromStr std s = .ok entry →
      Reading std shape (trim s) addr n ports →
        (entry.ports.isSome = true ↔ shape = .net4Ports ∨ shape = .bracketedPorts)) ∧
    (∀ s entry range, InternalWhitelistEntry.fromStr std s = .ok entry →
      entry.ports = some range → range.contains 0 = false) ∧
    (∀ s entry, InternalWhitelistEntry.fromStr std s = .ok entry →
      InternalWhitelistEntry.fromStr std (entry.fmt std) = .ok entry) ∧
    (∀ s cidr, Cidr.fromStr std s = .ok cidr → Cidr.fromStr std (cidr.fmt std) = .ok cidr) ∧
    ∀ s range, PortRange.fromStr s = .ok range → PortRange.fromStr range.fmt = .ok range := by
  refine ⟨fun s entry => fromStr_ok_iff hstd, ?_, ?_, ?_, ?_, fun s entry => entry_roundtrip hstd,
    fun s cidr => cidr_roundtrip hstd, ?_⟩
  · intro s
    constructor
    · rintro ⟨entry, h⟩
      obtain ⟨shape, addr, n, ports, hreading, -⟩ := (fromStr_ok_iff hstd).mp h
      exact ⟨shape, addr, n, ports, hreading⟩
    · rintro ⟨shape, addr, n, ports, hreading⟩
      obtain ⟨cidr, hnew⟩ := hreading.exists_new hstd
      obtain ⟨range, hrange⟩ := hreading.exists_ports
      exact ⟨⟨cidr, range⟩,
        (fromStr_ok_iff hstd).mpr ⟨shape, addr, n, ports, hreading, hnew, hrange⟩⟩
  · intro text shape addr n ports shape' addr' n' ports' h h'
    exact reading_unique hstd h h'
  · intro s entry shape addr n ports h hreading
    obtain ⟨shape', addr', n', ports', hreading', -, hports'⟩ := (fromStr_ok_iff hstd).mp h
    obtain ⟨rfl, -, -, -⟩ := reading_unique hstd hreading hreading'
    rw [← hreading'.isSome_ports, ← hports', Option.isSome_map]
  · intro s entry range h hrange
    have hpos : ¬ range.first ≤ 0 := by
      intro hle
      have hzero := Nat.le_zero.mp (UInt16.le_iff_toNat_le.mp hle)
      exact range.first_ne_zero (UInt16.toNat_inj.mp hzero)
    simp [PortRange.contains, hpos]
  · intro s range h
    exact (isPorts_fmt range).fromStr_eq range.first_ne_zero range.first_le_last

/-- `10.1.2.3/24 :8000-8100`, which is printed as `10.1.2.0/24:8000-8100`. -/
theorem whitelist_grammar_range :
    IpText.plain.Lawful ∧ ∃ entry,
      InternalWhitelistEntry.fromStr .plain "10.1.2.3/24 :8000-8100".toList = .ok entry ∧
      entry.fmt .plain = "10.1.2.0/24:8000-8100".toList ∧
      InternalWhitelistEntry.fromStr .plain "10.1.2.0/24:8000-8100".toList = .ok entry := by
  have hread : (InternalWhitelistEntry.fromStr .plain "10.1.2.3/24 :8000-8100".toList).toOption.map
      (fun entry => entry.fmt .plain) = some "10.1.2.0/24:8000-8100".toList := by decide +kernel
  obtain ⟨entry, hentry, hfmt⟩ := Option.map_eq_some_iff.mp hread
  have hok : InternalWhitelistEntry.fromStr .plain "10.1.2.3/24 :8000-8100".toList = .ok entry := by
    cases h : InternalWhitelistEntry.fromStr .plain "10.1.2.3/24 :8000-8100".toList with
    | error error =>
      rw [h] at hentry
      cases hentry
    | ok entry' =>
      rw [h] at hentry
      rw [Option.some.inj hentry]
  obtain ⟨-, -, -, -, -, hroundtrip, -⟩ := whitelist_grammar .plain IpText.plain_lawful
  refine ⟨IpText.plain_lawful, entry, hok, hfmt, ?_⟩
  rw [← hfmt]
  exact hroundtrip _ entry hok

end SocksServer
