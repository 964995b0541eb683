import SocksServer.Infra.Bits
import SocksServer.Policy.DestinationPolicy

/-!
# Membership in a network

`Cidr::new` stores a mapped network as IPv4 and shifts its prefix, and the callers of
`contains` unwrap the address they ask about. Both are the same question in one space of 128
bits: do address and network agree on the first bits?

* `IpAddr.embed` — an IPv4 address `v` stands for `::ffff:v`
* `contains_canonical_iff` — membership is agreement on a prefix, but an IPv6 network that
  reaches over the mapped range has no IPv4 members
* `isAllowed_iff_agreeOn` — so which clients a whitelist lets in
* `cidr_membership` — that, and what follows for the stored network and the whitelists
-/

namespace SocksServer

open Infra

/-! ## Masks -/

theorem checkedShl_of_ge {w n : Nat} (x : BitVec w) (h : w ≤ n) : checkedShl x n = none :=
  if_neg (by omega)

/-- A mask has its ones in front, also where `checked_shl` gives up. -/
theorem isPrefixMask_prefixMask (w p : Nat) : IsPrefixMask p (prefixMask w p) := by
  intro i hi
  unfold prefixMask
  by_cases hp : w - p < w
  · rw [checkedShl, if_pos hp]
    simp only [Option.getD_some, BitVec.getMsbD_shiftLeft, BitVec.getMsbD_allOnes]
    rw [decide_eq_decide]
    omega
  · rw [checkedShl_of_ge _ (by omega)]
    simp only [Option.getD_none]
    rw [decide_eq_false (by omega)]
    exact BitVec.getMsbD_zero

theorem isPrefixMask_v4Mask (p : UInt8) : IsPrefixMask p.toNat (v4Mask p) :=
  isPrefixMask_prefixMask 32 _

theorem isPrefixMask_v6Mask (p : UInt8) : IsPrefixMask p.toNat (v6Mask p) :=
  isPrefixMask_prefixMask 128 _

/-! ## One space for both families -/

/-- An IPv4 address stands for its mapped form. -/
def IpAddr.embed : IpAddr → BitVec 128
  | .v4 ip => (Ipv6Addr.ofIpv4Mapped ip).bits
  | .v6 ip => ip.bits

/-- The longest prefix of an address of this family. -/
def IpAddr.maxPrefix : IpAddr → Nat
  | .v4 _ => 32
  | .v6 _ => 128

/-- A prefix length of this family, counted in the common space. -/
def IpAddr.embedPrefix (ip : IpAddr) (prefixLen : UInt8) : Nat :=
  match ip with
  | .v4 _ => prefixLen.toNat + 96
  | .v6 _ => prefixLen.toNat

def IpAddr.isIpv4 : IpAddr → Bool
  | .v4 _ => true
  | .v6 _ => false

theorem toIpv4Mapped_eq_some {v6 : Ipv6Addr} {v4 : Ipv4Addr} :
    v6.toIpv4Mapped = some v4 ↔ v6 = .ofIpv4Mapped v4 := by
  constructor
  · intro h
    unfold Ipv6Addr.toIpv4Mapped at h
    split at h
    · next hhigh =>
      rw [← Option.some.inj h]
      unfold Ipv6Addr.ofIpv4Mapped
      rw [← hhigh]
      obtain ⟨bits⟩ := v6
      refine congrArg Ipv6Addr.mk (BitVec.eq_of_getLsbD_eq ?_)
      intro i hi
      rw [BitVec.getLsbD_append]
      split
      · next hlow => simp [hlow]
      · next hhigh => simp [show i - 32 < 96 by omega, show 32 + (i - 32) = i by omega]
    · simp at h
  · rintro rfl
    exact toIpv4Mapped_ofIpv4Mapped v4

/-- Unwrapping does not move an address. -/
@[simp] theorem embed_canonicalIp (ip : IpAddr) : (canonicalIp ip).embed = ip.embed := by
  cases ip with
  | v4 v4 => rfl
  | v6 v6 =>
    rw [canonicalIp_v6]
    cases h : v6.toIpv4Mapped with
    | none => rfl
    | some v4 => rw [toIpv4Mapped_eq_some.mp h]; rfl

/-- An address that agrees with a mapped one on 96 bits or more is mapped itself. -/
theorem toIpv4Mapped_of_agreeOn {v6 : Ipv6Addr} {v4 : Ipv4Addr} {p : Nat} (hp : 96 ≤ p)
    (h : AgreeOn p v6.bits (Ipv6Addr.ofIpv4Mapped v4).bits) : v6.toIpv4Mapped ≠ none := by
  have hhigh : v6.bits.extractLsb' 32 96 = 0xFFFF#96 := by
    apply BitVec.eq_of_getMsbD_eq
    intro i hi
    have hbit := h i (by omega)
    rw [Ipv6Addr.ofIpv4Mapped, BitVec.getMsbD_append, if_neg (by omega)] at hbit
    rw [BitVec.getMsbD_extractLsb', decide_eq_true hi, decide_eq_true (by omega), Bool.true_and,
      Bool.true_and, ← hbit]
    congr 1
    omega
  unfold Ipv6Addr.toIpv4Mapped
  rw [if_pos hhigh]
  simp

theorem agreeOn_mapped {p : Nat} {v u : Ipv4Addr} :
    AgreeOn (p + 96) (Ipv6Addr.ofIpv4Mapped v).bits (Ipv6Addr.ofIpv4Mapped u).bits ↔
      AgreeOn p v.bits u.bits := by
  rw [Nat.add_comm]
  exact agreeOn_append.trans (by simp)

/-! ## `Cidr::new` -/

section New

variable {a : IpAddr} {p : UInt8} {v4 : Ipv4Addr} {v6 : Ipv6Addr}

theorem Cidr.masked_v4 (v4 : Ipv4Addr) (hp : p ≤ 32) : ∃ c, Cidr.masked (.v4 v4) p = some c ∧
    c.network = .v4 ⟨v4.bits &&& v4Mask p⟩ ∧ c.prefixLen = p := by
  unfold Cidr.masked
  simp only [hp, dite_true]
  exact ⟨_, rfl, rfl, rfl⟩

theorem Cidr.masked_v6 (v6 : Ipv6Addr) (hp : p ≤ 128) : ∃ c, Cidr.masked (.v6 v6) p = some c ∧
    c.network = .v6 ⟨v6.bits &&& v6Mask p⟩ ∧ c.prefixLen = p := by
  unfold Cidr.masked
  simp only [hp, dite_true]
  exact ⟨_, rfl, rfl, rfl⟩

/-- A mapped network is the IPv4 network. -/
theorem Cidr.new_mapped (v4 : Ipv4Addr) (hp : 96 ≤ p) :
    Cidr.new (.v6 (.ofIpv4Mapped v4)) p = Cidr.new (.v4 v4) (p - 96) := by
  unfold Cidr.new
  simp only [hp, if_true, toIpv4Mapped_ofIpv4Mapped]

/--
The three ways through `Cidr::new`: a mapped network, and what is masked as it stands. The
last is never a mapped address under a prefix of 96 or more.
-/
theorem Cidr.new_cases (a : IpAddr) (p : UInt8) :
    (∃ v4, a = .v6 (.ofIpv4Mapped v4) ∧ 96 ≤ p) ∨
      (∃ v4, a = .v4 v4 ∧ Cidr.new a p = Cidr.masked a p) ∨
      (∃ v6, a = .v6 v6 ∧ (96 ≤ p → v6.toIpv4Mapped = none) ∧
        Cidr.new a p = Cidr.masked a p) := by
  cases a with
  | v4 v4 => exact .inr (.inl ⟨v4, rfl, rfl⟩)
  | v6 v6 =>
    by_cases hp : 96 ≤ p
    · cases h : v6.toIpv4Mapped with
      | some v4 =>
        rw [toIpv4Mapped_eq_some.mp h]
        exact .inl ⟨v4, rfl, hp⟩
      | none =>
        refine .inr (.inr ⟨v6, rfl, fun _ => h, ?_⟩)
        unfold Cidr.new
        simp only [hp, if_true, h]
    · refine .inr (.inr ⟨v6, rfl, fun h => absurd h hp, ?_⟩)
      unfold Cidr.new
      simp only [hp, if_false]

theorem Cidr.masked_eq_none : Cidr.masked a p = none ↔ a.maxPrefix < p.toNat := by
  have hle : ∀ n : Nat, n < 256 → (¬ p ≤ UInt8.ofNat n ↔ n < p.toNat) := by
    intro n hn
    rw [UInt8.le_iff_toNat_le, UInt8.toNat_ofNat', Nat.mod_eq_of_lt hn]
    omega
  cases a with
  | v4 ip =>
    unfold Cidr.masked
    simpa [IpAddr.maxPrefix] using hle 32 (by omega)
  | v6 ip =>
    unfold Cidr.masked
    simpa [IpAddr.maxPrefix] using hle 128 (by omega)

theorem toNat_sub_96 (hp : 96 ≤ p) : (p - 96).toNat = p.toNat - 96 :=
  UInt8.toNat_sub_of_le _ _ hp

theorem Cidr.new_eq_none : Cidr.new a p = none ↔ a.maxPrefix < p.toNat := by
  rcases Cidr.new_cases a p with ⟨v4, rfl, hp⟩ | ⟨v4, rfl, hnew⟩ | ⟨v6, rfl, -, hnew⟩
  · have h96 : 96 ≤ p.toNat := UInt8.le_iff_toNat_le.mp hp
    rw [Cidr.new_mapped v4 hp,
      show Cidr.new (.v4 v4) (p - 96) = Cidr.masked (.v4 v4) (p - 96) from rfl,
      Cidr.masked_eq_none, toNat_sub_96 hp]
    simp only [IpAddr.maxPrefix]
    omega
  · rw [hnew, Cidr.masked_eq_none]
  · rw [hnew, Cidr.masked_eq_none]

/-! ## Membership -/

variable {c : Cidr} {ip : IpAddr}

theorem contains_masked_v4 (h : Cidr.masked (.v4 v4) p = some c) :
    c.contains (canonicalIp ip) = true ↔
      AgreeOn (p.toNat + 96) ip.embed (IpAddr.v4 v4).embed := by
  have hp : p ≤ 32 := by
    by_contra hp
    simp [Cidr.masked, hp] at h
  obtain ⟨c', hc', hnet, hlen⟩ := Cidr.masked_v4 v4 hp
  obtain rfl : c' = c := Option.some.inj (hc'.symm.trans h)
  rw [← embed_canonicalIp ip]
  cases hip : canonicalIp ip with
  | v4 u =>
    simp only [Cidr.contains, hnet, hlen, beq_iff_eq]
    rw [and_eq_and_iff (isPrefixMask_v4Mask p)]
    exact agreeOn_mapped.symm
  | v6 u =>
    -- the address is not a mapped one, so it cannot share the first 96 bits of one
    simp only [Cidr.contains, hnet, Bool.false_eq_true, false_iff]
    intro hagree
    have hcan : IsCanonical (.v6 u) := hip ▸ canonicalIp_idem ip
    cases hu : u.toIpv4Mapped with
    | none => exact toIpv4Mapped_of_agreeOn (by omega) hagree hu
    | some v => exact hcan.ne_mapped v (by rw [toIpv4Mapped_eq_some.mp hu])

theorem contains_masked_v6 (h : Cidr.masked (.v6 v6) p = some c)
    (hmapped : 96 ≤ p → v6.toIpv4Mapped = none) :
    c.contains (canonicalIp ip) = true ↔ AgreeOn p.toNat ip.embed v6.bits ∧
      (p < 96 → (canonicalIp ip).isIpv4 = false) := by
  have hp : p ≤ 128 := by
    by_contra hp
    simp [Cidr.masked, hp] at h
  obtain ⟨c', hc', hnet, hlen⟩ := Cidr.masked_v6 v6 hp
  obtain rfl : c' = c := Option.some.inj (hc'.symm.trans h)
  rw [← embed_canonicalIp ip]
  cases hip : canonicalIp ip with
  | v6 u =>
    simp only [Cidr.contains, hnet, hlen, beq_iff_eq, IpAddr.isIpv4, implies_true, and_true]
    exact and_eq_and_iff (isPrefixMask_v6Mask p) _ _
  | v4 u =>
    simp only [Cidr.contains, hnet, IpAddr.isIpv4, Bool.false_eq_true, false_iff, not_and]
    intro hagree himp
    have h96 : 96 ≤ p := UInt8.not_lt.mp fun hlt => by simpa using himp hlt
    exact toIpv4Mapped_of_agreeOn (UInt8.le_iff_toNat_le.mp h96) hagree.symm (hmapped h96)

/--
**Membership is agreement on a prefix.** The one exception: an IPv6 network that reaches over
the mapped range has no IPv4 members.
-/
theorem contains_canonical_iff (h : Cidr.new a p = some c) (ip : IpAddr) :
    c.contains (canonicalIp ip) = true ↔ AgreeOn (a.embedPrefix p) ip.embed a.embed ∧
      (a.isIpv4 = false → p < 96 → (canonicalIp ip).isIpv4 = false) := by
  rcases Cidr.new_cases a p with ⟨v4, rfl, hp⟩ | ⟨v4, rfl, hnew⟩ | ⟨v6, rfl, hmapped, hnew⟩
  · rw [Cidr.new_mapped v4 hp] at h
    rw [contains_masked_v4 h, toNat_sub_96 hp,
      Nat.sub_add_cancel (show 96 ≤ p.toNat from UInt8.le_iff_toNat_le.mp hp)]
    exact ⟨fun hagree => ⟨hagree, fun _ hlt => absurd hp (UInt8.not_le.mpr hlt)⟩, And.left⟩
  · rw [hnew] at h
    rw [contains_masked_v4 h]
    exact ⟨fun hagree => ⟨hagree, fun hv6 => by simp [IpAddr.isIpv4] at hv6⟩, And.left⟩
  · rw [hnew] at h
    rw [contains_masked_v6 h hmapped]
    simp [IpAddr.embedPrefix, IpAddr.embed, IpAddr.isIpv4]

/-! ## The stored network -/

theorem Cidr.ext {c c' : Cidr} (hnet : c.network = c'.network) (hlen : c.prefixLen = c'.prefixLen) :
    c = c' := by
  cases c
  cases c'
  cases hnet
  cases hlen
  rfl

theorem masked_v4_congr {u : Ipv4Addr} (h : AgreeOn p.toNat v4.bits u.bits) :
    Cidr.masked (.v4 v4) p = Cidr.masked (.v4 u) p := by
  by_cases hp : p ≤ 32
  · obtain ⟨c, hc, hnet, hlen⟩ := Cidr.masked_v4 v4 hp
    obtain ⟨c', hc', hnet', hlen'⟩ := Cidr.masked_v4 u hp
    have hcc : c = c' := by
      apply Cidr.ext _ (hlen.trans hlen'.symm)
      rw [hnet, hnet', (and_eq_and_iff (isPrefixMask_v4Mask p) _ _).mpr h]
    rw [hc, hc', hcc]
  · simp [Cidr.masked, hp]

theorem masked_v6_congr {u : Ipv6Addr} (h : AgreeOn p.toNat v6.bits u.bits) :
    Cidr.masked (.v6 v6) p = Cidr.masked (.v6 u) p := by
  by_cases hp : p ≤ 128
  · obtain ⟨c, hc, hnet, hlen⟩ := Cidr.masked_v6 v6 hp
    obtain ⟨c', hc', hnet', hlen'⟩ := Cidr.masked_v6 u hp
    have hcc : c = c' := by
      apply Cidr.ext _ (hlen.trans hlen'.symm)
      rw [hnet, hnet', (and_eq_and_iff (isPrefixMask_v6Mask p) _ _).mpr h]
    rw [hc, hc', hcc]
  · simp [Cidr.masked, hp]

/-- A mapped network and one that agrees with it are both stored as IPv4. -/
theorem new_congr_mapped {v6 : Ipv6Addr} (hp : 96 ≤ p)
    (h : AgreeOn p.toNat v6.bits (Ipv6Addr.ofIpv4Mapped v4).bits) :
    Cidr.new (.v6 v6) p = Cidr.new (.v6 (.ofIpv4Mapped v4)) p := by
  have h96 : 96 ≤ p.toNat := UInt8.le_iff_toNat_le.mp hp
  obtain ⟨u, hu⟩ := Option.ne_none_iff_exists'.mp (toIpv4Mapped_of_agreeOn h96 h)
  obtain rfl := toIpv4Mapped_eq_some.mp hu
  rw [Cidr.new_mapped u hp, Cidr.new_mapped v4 hp]
  refine masked_v4_congr (agreeOn_mapped.mp ?_)
  rw [toNat_sub_96 hp, Nat.sub_add_cancel h96]
  exact h

/-- The host bits do not matter. -/
theorem new_congr {a a' : IpAddr} (hfamily : a.isIpv4 = a'.isIpv4)
    (h : AgreeOn (a.embedPrefix p) a.embed a'.embed) : Cidr.new a p = Cidr.new a' p := by
  cases a with
  | v4 v =>
    cases a' with
    | v4 u => exact masked_v4_congr (agreeOn_mapped.mp h)
    | v6 u => simp [IpAddr.isIpv4] at hfamily
  | v6 v =>
    cases a' with
    | v4 u => simp [IpAddr.isIpv4] at hfamily
    | v6 u =>
      have h' : AgreeOn p.toNat v.bits u.bits := h
      rcases Cidr.new_cases (.v6 u) p with ⟨x, hx, hp⟩ | ⟨x, hx, -⟩ | ⟨x, hx, -, hnew⟩
      · cases hx
        exact new_congr_mapped hp h'
      · cases hx
      · rcases Cidr.new_cases (.v6 v) p with ⟨y, hy, hp⟩ | ⟨y, hy, -⟩ | ⟨y, hy, -, hnew'⟩
        · cases hy
          exact (new_congr_mapped hp h'.symm).symm
        · cases hy
        · rw [hnew, hnew']
          exact masked_v6_congr h'

theorem agreeOn_masked {w q : Nat} {m : BitVec w} (hm : IsPrefixMask q m) (x : BitVec w) :
    AgreeOn q x (x &&& m) := by
  rw [← and_eq_and_iff hm, BitVec.and_assoc, BitVec.and_self]

theorem new_network_v4 (h : Cidr.masked (.v4 v4) p = some c) :
    Cidr.new c.network c.prefixLen = some c := by
  by_cases hp : p ≤ 32
  · obtain ⟨c', hc', hnet, hlen⟩ := Cidr.masked_v4 v4 hp
    rw [hc', Option.some.injEq] at h
    subst h
    rw [hnet, hlen, ← hc']
    exact (masked_v4_congr (agreeOn_masked (isPrefixMask_v4Mask p) v4.bits)).symm
  · simp [Cidr.masked, hp] at h

/-- A stored network is the network of itself. -/
theorem Cidr.new_network (h : Cidr.new a p = some c) : Cidr.new c.network c.prefixLen = some c := by
  rcases Cidr.new_cases a p with ⟨v4, rfl, hp⟩ | ⟨v4, rfl, hnew⟩ | ⟨v6, rfl, -, hnew⟩
  · rw [Cidr.new_mapped v4 hp] at h
    exact new_network_v4 h
  · rw [hnew] at h
    exact new_network_v4 h
  · by_cases hp : p ≤ 128
    · obtain ⟨c', hc', hnet, hlen⟩ := Cidr.masked_v6 v6 hp
      rw [hnew, hc', Option.some.injEq] at h
      subst h
      rw [hnet, hlen, ← hc', ← hnew]
      have hsame : Cidr.new (.v6 v6) p = Cidr.new (.v6 ⟨v6.bits &&& v6Mask p⟩) p :=
        new_congr rfl (agreeOn_masked (isPrefixMask_v6Mask p) v6.bits)
      exact hsame.symm
    · rw [hnew] at h
      simp [Cidr.masked, hp] at h

end New

/-! ## Clients -/

/-- A client is let in by an empty list, or by a network that contains its canonical address. -/
theorem isAllowed_iff {acl : ClientAcl} {ip : IpAddr} : acl.isAllowed ip = true ↔
    acl.networks = [] ∨ ∃ network ∈ acl.networks, network.contains (canonicalIp ip) = true := by
  simp [ClientAcl.isAllowed]

/-- **The whitelist as it is configured**: some network agrees with the client on its prefix. -/
theorem isAllowed_iff_agreeOn {specs : List (IpAddr × UInt8)} {acl : ClientAcl}
    (h : specs.map (fun spec => Cidr.new spec.1 spec.2) = acl.networks.map some) (ip : IpAddr) :
    acl.isAllowed ip = true ↔ specs = [] ∨ ∃ spec ∈ specs,
      AgreeOn (spec.1.embedPrefix spec.2) ip.embed spec.1.embed ∧
        (spec.1.isIpv4 = false → spec.2 < 96 → (canonicalIp ip).isIpv4 = false) := by
  rw [isAllowed_iff]
  refine or_congr ?_ ?_
  · rw [← List.map_eq_nil_iff (f := some), ← h, List.map_eq_nil_iff]
  · constructor
    · rintro ⟨network, hmem, hcontains⟩
      have hsome : some network ∈ specs.map fun spec => Cidr.new spec.1 spec.2 := by
        rw [h]
        exact List.mem_map_of_mem hmem
      obtain ⟨spec, hspec, hnew⟩ := List.mem_map.mp hsome
      exact ⟨spec, hspec, (contains_canonical_iff hnew ip).mp hcontains⟩
    · rintro ⟨spec, hspec, hagree⟩
      have hsome : Cidr.new spec.1 spec.2 ∈ acl.networks.map some := by
        rw [← h]
        exact List.mem_map_of_mem (f := fun spec : IpAddr × UInt8 => Cidr.new spec.1 spec.2) hspec
      obtain ⟨network, hmem, hnew⟩ := List.mem_map.mp hsome
      exact ⟨network, hmem, (contains_canonical_iff hnew.symm ip).mpr hagree⟩

/--
**Networks are prefixes of one address space.** A network is stored for every prefix that fits
its family; membership is agreement on the prefix; host bits and the mapped form do not matter,
to the whitelists neither; and the masks are right up to both ends of the range.
-/
theorem cidr_membership :
    (∀ a p, Cidr.new a p = none ↔ a.maxPrefix < p.toNat) ∧
    (∀ a p c, Cidr.new a p = some c → ∀ ip, c.contains (canonicalIp ip) = true ↔
      AgreeOn (a.embedPrefix p) ip.embed a.embed ∧
        (a.isIpv4 = false → p < 96 → (canonicalIp ip).isIpv4 = false)) ∧
    (∀ a a' p, a.isIpv4 = a'.isIpv4 → AgreeOn (a.embedPrefix p) a.embed a'.embed →
      Cidr.new a p = Cidr.new a' p) ∧
    (∀ v q, q.toNat + 96 < 256 → Cidr.new (.v6 (.ofIpv4Mapped v)) (96 + q) = Cidr.new (.v4 v) q) ∧
    (∀ (acl : ClientAcl) v, acl.isAllowed (.v6 (.ofIpv4Mapped v)) = acl.isAllowed (.v4 v)) ∧
    (∀ (entry : InternalWhitelistEntry) v port flowinfo scopeId,
      entry.matches (.v6 (.ofIpv4Mapped v) port flowinfo scopeId) = entry.matches (.v4 v port)) ∧
    ∀ p, IsPrefixMask p.toNat (v4Mask p) ∧ IsPrefixMask p.toNat (v6Mask p) := by
  have hcanonical : ∀ v, canonicalIp (.v6 (.ofIpv4Mapped v)) = .v4 v := by
    intro v
    rw [canonicalIp_v6, toIpv4Mapped_ofIpv4Mapped]
  refine ⟨fun a p => Cidr.new_eq_none, fun a p c h ip => contains_canonical_iff h ip,
    fun a a' p => new_congr, ?_, ?_, ?_,
    fun p => ⟨isPrefixMask_v4Mask p, isPrefixMask_v6Mask p⟩⟩
  · intro v q hq
    have hsum : (96 + q).toNat = 96 + q.toNat := by
      rw [UInt8.toNat_add, Nat.mod_eq_of_lt (by simpa [Nat.add_comm] using hq)]
      rfl
    rw [Cidr.new_mapped v (UInt8.le_iff_toNat_le.mpr (by rw [hsum]; exact Nat.le_add_right _ _))]
    congr 1
    rw [UInt8.add_comm, UInt8.add_sub_cancel]
  · intro acl v
    simp only [ClientAcl.isAllowed, hcanonical, canonicalIp_v4]
  · intro entry v port flowinfo scopeId
    simp only [InternalWhitelistEntry.matches, SocketAddr.ip, SocketAddr.port, hcanonical,
      canonicalIp_v4]

end SocksServer
