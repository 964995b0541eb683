import SocksServer.Policy.FromStr

/-!
# IP literals written out

`IpAddr` as text without the abbreviations of IPv6: four decimal numbers, or eight groups of
hexadecimal digits. `std` reads these literals like this, and prints an IPv6 address without
two groups of zeros in a row like this.
-/

namespace SocksServer

open Infra Text

namespace IpText

def plain : IpText where
  fromStr s :=
    match readFields '.' 4 (readField 10 3 false 256) s with
    | some groups => some (.v4 ⟨BitVec.ofNat 32 (ofBase 256 groups)⟩)
    | none =>
      (readFields ':' 8 (readField 16 4 true 65536) s).map fun groups =>
        .v6 ⟨BitVec.ofNat 128 (ofBase 65536 groups)⟩
  fmt
    | .v4 ip => ['.'].intercalate ((toBase 256 4 ip.bits.toNat).map (Nat.toDigits 10))
    | .v6 ip => [':'].intercalate ((toBase 65536 8 ip.bits.toNat).map (Nat.toDigits 16))

/-- How the plain reader reads an address: dotted decimal, or eight groups in full. -/
theorem fromStr_plain (s : Str) : plain.fromStr s =
    match readFields '.' 4 (readField 10 3 false 256) s with
    | some groups => some (.v4 ⟨BitVec.ofNat 32 (ofBase 256 groups)⟩)
    | none =>
      (readFields ':' 8 (readField 16 4 true 65536) s).map fun groups =>
        .v6 ⟨BitVec.ofNat 128 (ofBase 65536 groups)⟩ := rfl

/-- How the plain writer prints an IPv4 address. -/
theorem fmt_plain_v4 (ip : Ipv4Addr) : plain.fmt (.v4 ip) =
    ['.'].intercalate ((toBase 256 4 ip.bits.toNat).map (Nat.toDigits 10)) := rfl

/-- How the plain writer prints an IPv6 address. -/
theorem fmt_plain_v6 (ip : Ipv6Addr) : plain.fmt (.v6 ip) =
    [':'].intercalate ((toBase 65536 8 ip.bits.toNat).map (Nat.toDigits 16)) := rfl

theorem not_mem_toDigits {radix : Nat} (h1 : 1 < radix) (h2 : radix ≤ 16) {c : Char}
    (hc : toDigit radix c = none) (n : Nat) : c ∉ Nat.toDigits radix n := by
  intro hmem
  have hdigit := isSome_toDigit_of_mem (fromDigits_toDigits h1 h2 n) hmem
  rw [hc] at hdigit
  cases hdigit

theorem readField_decimal {v : Nat} (h : v < 256) :
    readField 10 3 false 256 (Nat.toDigits 10 v) = some v := by
  have hall : ∀ k : Fin 256, readField 10 3 false 256 (Nat.toDigits 10 k.val) = some k.val := by
    decide +kernel
  exact hall ⟨v, h⟩

theorem readField_hexadecimal {v : Nat} (h : v < 65536) :
    readField 16 4 true 65536 (Nat.toDigits 16 v) = some v := by
  have hlen : (Nat.toDigits 16 v).length ≤ 4 :=
    (Nat.length_toDigits_le_iff (by omega) (by omega)).mpr h
  unfold readField
  rw [if_neg, fromDigits_toDigits (by omega) (by omega), Option.filter_some,
    if_pos (by simpa using h)]
  rintro (hnil | hlong | ⟨hzeros, -⟩)
  · exact Nat.toDigits_ne_nil hnil
  · omega
  · cases hzeros

/-- The four bytes of a printed IPv4 address are read back. -/
theorem readFields_v4 (ip : Ipv4Addr) :
    readFields '.' 4 (readField 10 3 false 256) (plain.fmt (.v4 ip)) =
      some (toBase 256 4 ip.bits.toNat) := by
  rw [fmt_plain_v4]
  refine readFields_intercalate ?_ (length_toBase _ _ _) ?_ ?_
  · exact List.ne_nil_of_length_pos (by rw [length_toBase]; omega)
  · intro v hv
    exact readField_decimal (lt_of_mem_toBase (by omega) hv)
  · intro v hv
    exact not_mem_toDigits (by omega) (by omega) (by decide) v

/-- The eight groups of a printed IPv6 address are read back. -/
theorem readFields_v6 (ip : Ipv6Addr) :
    readFields ':' 8 (readField 16 4 true 65536) (plain.fmt (.v6 ip)) =
      some (toBase 65536 8 ip.bits.toNat) := by
  rw [fmt_plain_v6]
  refine readFields_intercalate ?_ (length_toBase _ _ _) ?_ ?_
  · exact List.ne_nil_of_length_pos (by rw [length_toBase]; omega)
  · intro v hv
    exact readField_hexadecimal (lt_of_mem_toBase (by omega) hv)
  · intro v hv
    exact not_mem_toDigits (by omega) (by omega) (by decide) v

/-- The two kinds of literals. -/
theorem plain_cases {s : Str} {ip : IpAddr} (h : plain.fromStr s = some ip) :
    (∃ groups v4, ip = .v4 v4 ∧ readFields '.' 4 (readField 10 3 false 256) s = some groups) ∨
    ∃ groups v6, ip = .v6 v6 ∧ readFields ':' 8 (readField 16 4 true 65536) s = some groups := by
  rw [fromStr_plain] at h
  split at h
  · next groups hgroups => exact .inl ⟨groups, _, (Option.some.inj h).symm, hgroups⟩
  · obtain ⟨groups, hgroups, rfl⟩ := Option.map_eq_some_iff.mp h
    exact .inr ⟨groups, _, rfl, hgroups⟩

/-- A character of a literal is a digit or the separator. -/
theorem plain_char {s : Str} {ip : IpAddr} (h : plain.fromStr s = some ip) {c : Char}
    (hc : c ∈ s) : c = '.' ∨ c = ':' ∨ ∃ radix, (toDigit radix c).isSome = true := by
  rcases plain_cases h with ⟨groups, v4, -, hread⟩ | ⟨groups, v6, -, hread⟩
  · rcases mem_of_readFields hread hc with rfl | ⟨part, v, hv, hmem⟩
    · exact .inl rfl
    · exact .inr (.inr ⟨10, digit_of_readField hv hmem⟩)
  · rcases mem_of_readFields hread hc with rfl | ⟨part, v, hv, hmem⟩
    · exact .inr (.inl rfl)
    · exact .inr (.inr ⟨16, digit_of_readField hv hmem⟩)

/-- What reads as an IPv4 address has no colon in it. -/
theorem v4_colon_plain {s : Str} {groups : List Nat}
    (h : readFields '.' 4 (readField 10 3 false 256) s = some groups) : ':' ∉ s := by
  intro hmem
  rcases mem_of_readFields h hmem with hsep | ⟨part, v, hv, hpart⟩
  · exact absurd hsep (by decide)
  · exact absurd (digit_of_readField hv hpart) (by decide)

/-- A printed address is read back. -/
theorem fromStr_fmt_plain (ip : IpAddr) : plain.fromStr (plain.fmt ip) = some ip := by
  cases ip with
  | v4 ip =>
    have hmod : ip.bits.toNat % 256 ^ 4 = ip.bits.toNat := Nat.mod_eq_of_lt ip.bits.isLt
    rw [fromStr_plain, readFields_v4]
    dsimp only
    rw [ofBase_toBase, hmod, BitVec.ofNat_toNat, BitVec.setWidth_eq]
  | v6 ip =>
    have hcolon : ':' ∈ plain.fmt (.v6 ip) := by
      have hcount := count_of_readFields (readFields_v6 ip)
      exact List.count_pos_iff.mp (by omega)
    have hnone : readFields '.' 4 (readField 10 3 false 256) (plain.fmt (.v6 ip)) = none := by
      rw [Option.eq_none_iff_forall_ne_some]
      intro groups hgroups
      exact v4_colon_plain hgroups hcolon
    have hmod : ip.bits.toNat % 65536 ^ 8 = ip.bits.toNat := Nat.mod_eq_of_lt ip.bits.isLt
    rw [fromStr_plain, hnone]
    dsimp only
    rw [readFields_v6, Option.map_some, ofBase_toBase, hmod, BitVec.ofNat_toNat,
      BitVec.setWidth_eq]

/-- The plain reader and writer have what `IpText` asks of those of `std`. -/
theorem plain_lawful : plain.Lawful where
  fromStr_fmt := fromStr_fmt_plain
  v4_colon h := by
    rcases plain_cases h with ⟨groups, v4, -, hread⟩ | ⟨groups, v6, hip, -⟩
    · exact v4_colon_plain hread
    · cases hip
  v6_colons h := by
    rcases plain_cases h with ⟨groups, v4, hip, -⟩ | ⟨groups, v6, -, hread⟩
    · cases hip
    · have hcount := count_of_readFields hread
      omega
  delimiter h c hc := by
    intro hmem
    simp only [List.mem_cons, List.not_mem_nil, or_false] at hmem
    rcases plain_char h hc with rfl | rfl | ⟨radix, hdigit⟩
    · simp at hmem
    · simp at hmem
    · have hnone : toDigit radix c = none := by
        rcases hmem with rfl | rfl | rfl <;> rfl
      rw [hnone] at hdigit
      cases hdigit
  whitespace h c hc := by
    rcases plain_char h hc with rfl | rfl | ⟨radix, hdigit⟩
    · decide
    · decide
    · rw [Bool.eq_false_iff]
      intro hspace
      rw [toDigit_of_whitespace radix hspace] at hdigit
      cases hdigit

end IpText

end SocksServer
