import Mathlib.Data.List.DropRight
import Mathlib.Tactic.Ring

/-!
# Text

A `&str` as the list of its characters, with what `std` does to it: `trim`, `split_once`,
`strip_prefix`, and numbers as `FromStr` reads and `Display` prints them.

* `around_trim`, `trim_around` : `trim` takes off the white space around a text, and only that
* `splitOnce_eq_some` : the first separator
* `fromDigits_toDigits` : a printed number is read back
-/

namespace Infra

/-- A `&str`, as its characters. -/
abbrev Str := List Char

namespace Text

/-! ## White space -/

/-- `char::is_whitespace`: the Unicode property `White_Space`. -/
def isWhitespace (c : Char) : Bool :=
  (0x09 ≤ c.toNat && c.toNat ≤ 0x0D) || c.toNat == 0x20 || c.toNat == 0x85 || c.toNat == 0xA0
    || c.toNat == 0x1680 || (0x2000 ≤ c.toNat && c.toNat ≤ 0x200A) || c.toNat == 0x2028
    || c.toNat == 0x2029 || c.toNat == 0x202F || c.toNat == 0x205F || c.toNat == 0x3000

/-- `str::trim` -/
def trim (s : Str) : Str := (s.dropWhile isWhitespace).rdropWhile isWhitespace

/-- `core` with white space around it. -/
def Around (core s : Str) : Prop :=
  ∃ left right, (∀ c ∈ left, isWhitespace c = true) ∧ (∀ c ∈ right, isWhitespace c = true) ∧
    s = left ++ (core ++ right)

theorem Around.refl (s : Str) : Around s s := ⟨[], [], by simp, by simp, by simp⟩

/-- What is in the text is in the core or white space. -/
theorem Around.mem {core s : Str} (h : Around core s) {c : Char} (hc : c ∈ s) :
    c ∈ core ∨ isWhitespace c = true := by
  obtain ⟨left, right, hleft, hright, rfl⟩ := h
  rcases List.mem_append.mp hc with hc | hc
  · exact .inr (hleft c hc)
  · exact (List.mem_append.mp hc).imp id (hright c)

theorem around_trim (s : Str) : Around (trim s) s := by
  refine ⟨s.takeWhile isWhitespace, (s.dropWhile isWhitespace).rtakeWhile isWhitespace, ?_, ?_, ?_⟩
  · intro c hc
    exact List.mem_takeWhile_imp hc
  · intro c hc
    exact List.mem_rtakeWhile_imp hc
  · rw [trim, List.rdropWhile_append_rtakeWhile, List.takeWhile_append_dropWhile]

/-- White space before a text that does not start with any. -/
theorem dropWhile_append_core {left core : Str} (hleft : ∀ c ∈ left, isWhitespace c = true)
    (hcore : ∀ c ∈ core, isWhitespace c = false) :
    (left ++ core).dropWhile isWhitespace = core := by
  rw [List.dropWhile_append_of_pos hleft]
  cases core with
  | nil => rfl
  | cons c core => rw [List.dropWhile_cons_of_neg (by simp [hcore c List.mem_cons_self])]

/-- Of a text without white space and white space around it, `trim` leaves the text. -/
theorem trim_around {core s : Str} (hcore : ∀ c ∈ core, isWhitespace c = false)
    (h : Around core s) : trim s = core := by
  obtain ⟨left, right, hleft, hright, rfl⟩ := h
  have hstart : (left ++ (core ++ right)).dropWhile isWhitespace =
      if core = [] then [] else core ++ right := by
    rw [List.dropWhile_append_of_pos hleft]
    cases core with
    | nil =>
      rw [if_pos rfl, List.nil_append]
      exact List.dropWhile_eq_nil_iff.mpr hright
    | cons c core =>
      rw [if_neg (by simp), List.cons_append,
        List.dropWhile_cons_of_neg (by simp [hcore c List.mem_cons_self])]
  rw [trim, hstart]
  split
  · next hnil =>
    rw [hnil]
    rfl
  · rw [List.rdropWhile, List.reverse_append,
      dropWhile_append_core (by simpa using hright) (by simpa using hcore), List.reverse_reverse]

/-! ## Splitting -/

/-- `str::split_once` -/
def splitOnce (sep : Char) : Str → Option (Str × Str)
  | [] => none
  | c :: s => if c = sep then some ([], s) else (splitOnce sep s).map fun p => (c :: p.1, p.2)

/-- `str::strip_prefix` -/
def stripPrefix (first : Char) : Str → Option Str
  | [] => none
  | c :: s => if c = first then some s else none

theorem splitOnce_eq_none {sep : Char} {s : Str} : splitOnce sep s = none ↔ sep ∉ s := by
  induction s with
  | nil => simp [splitOnce]
  | cons c s ih =>
    rw [splitOnce]
    split
    · next h => simp [h]
    · next h =>
      rw [Option.map_eq_none_iff, ih, List.mem_cons, not_or]
      exact (and_iff_right fun heq => h heq.symm).symm

/-- The separator found is the first one. -/
theorem splitOnce_eq_some {sep : Char} {s a b : Str} :
    splitOnce sep s = some (a, b) ↔ s = a ++ sep :: b ∧ sep ∉ a := by
  induction s generalizing a with
  | nil => simp [splitOnce]
  | cons c s ih =>
    rw [splitOnce]
    split
    · next h =>
      subst h
      cases a with
      | nil => simp
      | cons d a =>
        simp only [Option.some.injEq, Prod.mk.injEq, List.nil_eq, reduceCtorEq, false_and,
          List.cons_append, List.cons.injEq, false_iff, not_and, and_imp]
        rintro rfl -
        simp
    · next h =>
      cases a with
      | nil => simp [h]
      | cons d a =>
        simp only [Option.map_eq_some_iff, Prod.exists, Prod.mk.injEq, List.cons.injEq,
          List.cons_append]
        constructor
        · rintro ⟨a', b', hsplit, ⟨rfl, rfl⟩, rfl⟩
          obtain ⟨rfl, hnot⟩ := ih.mp hsplit
          refine ⟨⟨rfl, rfl⟩, ?_⟩
          simp only [List.mem_cons, not_or]
          exact ⟨fun heq => h heq.symm, hnot⟩
        · rintro ⟨⟨rfl, rfl⟩, hnot⟩
          rw [List.mem_cons, not_or] at hnot
          exact ⟨a, b, ih.mpr ⟨rfl, hnot.2⟩, ⟨rfl, rfl⟩, rfl⟩

/-- The first separator is where it was put. -/
theorem splitOnce_append {sep : Char} {a : Str} (h : sep ∉ a) (b : Str) :
    splitOnce sep (a ++ sep :: b) = some (a, b) :=
  splitOnce_eq_some.mpr ⟨rfl, h⟩

theorem stripPrefix_eq_some {first : Char} {s rest : Str} :
    stripPrefix first s = some rest ↔ s = first :: rest := by
  cases s with
  | nil => simp [stripPrefix]
  | cons c s =>
    rw [stripPrefix]
    split
    · next h => simp [h]
    · next h => simp [h]

theorem stripPrefix_eq_none {first : Char} {s : Str} (h : first ∉ s) :
    stripPrefix first s = none := by
  rw [Option.eq_none_iff_forall_ne_some]
  intro rest hrest
  rw [stripPrefix_eq_some.mp hrest] at h
  exact h List.mem_cons_self

/-! ## Numbers -/

/-- `char::to_digit` -/
def toDigit (radix : Nat) (c : Char) : Option Nat :=
  let value :=
    if 48 ≤ c.toNat ∧ c.toNat ≤ 57 then some (c.toNat - 48)
    else if 97 ≤ c.toNat ∧ c.toNat ≤ 122 then some (c.toNat - 87)
    else if 65 ≤ c.toNat ∧ c.toNat ≤ 90 then some (c.toNat - 55)
    else none
  value.filter (· < radix)

/-- The number with these digits, the first one counting most. -/
def fromDigits (radix : Nat) (s : Str) : Option Nat :=
  s.foldlM (fun n c => (toDigit radix c).map fun d => n * radix + d) 0

/-- `FromStr` of the unsigned integers up to `max`: digits, with a `+` before them or not. -/
def parseUnsigned (max : Nat) (s : Str) : Option Nat :=
  let digits := (stripPrefix '+' s).getD s
  if digits = [] then none else (fromDigits 10 digits).filter (· ≤ max)

/-- A printed digit is read back. -/
theorem toDigit_digitChar {radix d : Nat} (hradix : radix ≤ 16) (hd : d < radix) :
    toDigit radix d.digitChar = some d := by
  have hall : ∀ r : Fin 17, ∀ k : Fin 16, k.val < r.val →
      toDigit r.val k.val.digitChar = some k.val := by decide +kernel
  exact hall ⟨radix, by omega⟩ ⟨d, by omega⟩ hd

theorem fromDigits_concat (radix : Nat) (s : Str) (c : Char) :
    fromDigits radix (s ++ [c]) =
      (fromDigits radix s).bind fun n => (toDigit radix c).map fun d => n * radix + d := by
  simp [fromDigits, List.foldlM_append]

/-- A printed number is read back. -/
theorem fromDigits_toDigits {radix : Nat} (h1 : 1 < radix) (h2 : radix ≤ 16) (n : Nat) :
    fromDigits radix (Nat.toDigits radix n) = some n := by
  induction n using Nat.strong_induction_on with
  | h n ih =>
    rw [Nat.toDigits_eq_if h1]
    split
    · next hlt =>
      have hone := fromDigits_concat radix [] n.digitChar
      rw [toDigit_digitChar h2 hlt] at hone
      simpa [fromDigits] using hone
    · next hle =>
      have hsmaller : n / radix < n := Nat.div_lt_self (by omega) h1
      rw [fromDigits_concat, ih _ hsmaller, toDigit_digitChar h2 (Nat.mod_lt _ (by omega))]
      simp [Nat.div_add_mod']

/-- What is read as a number is made of digits. -/
theorem isSome_toDigit_of_mem {radix n : Nat} {s : Str} (h : fromDigits radix s = some n) {c : Char}
    (hc : c ∈ s) : (toDigit radix c).isSome = true := by
  induction s using List.reverseRecOn generalizing n with
  | nil => simp at hc
  | append_singleton s d ih =>
    rw [fromDigits_concat] at h
    obtain ⟨m, hm, hd⟩ := Option.bind_eq_some_iff.mp h
    rcases List.mem_append.mp hc with hc | hc
    · exact ih hm hc
    · obtain ⟨v, hv, -⟩ := Option.map_eq_some_iff.mp hd
      rw [List.mem_singleton.mp hc, hv]
      rfl

/-- White space is no digit. -/
theorem toDigit_of_whitespace (radix : Nat) {c : Char} (h : isWhitespace c = true) :
    toDigit radix c = none := by
  unfold isWhitespace at h
  simp only [Bool.or_eq_true, Bool.and_eq_true, decide_eq_true_eq, beq_iff_eq] at h
  unfold toDigit
  rw [if_neg (by omega), if_neg (by omega), if_neg (by omega)]
  rfl

/-- The characters of a number that is read. -/
theorem mem_of_parseUnsigned {max n : Nat} {s : Str} (h : parseUnsigned max s = some n) {c : Char}
    (hc : c ∈ s) : c = '+' ∨ (toDigit 10 c).isSome = true := by
  unfold parseUnsigned at h
  dsimp only at h
  split at h
  · cases h
  obtain ⟨hdigits, -⟩ := Option.filter_eq_some_iff.mp h
  cases hplus : stripPrefix '+' s with
  | none =>
    rw [hplus, Option.getD_none] at hdigits
    exact .inr (isSome_toDigit_of_mem hdigits hc)
  | some rest =>
    rw [hplus, Option.getD_some] at hdigits
    rw [stripPrefix_eq_some.mp hplus] at hc
    rcases List.mem_cons.mp hc with hc | hc
    · exact .inl hc
    · exact .inr (isSome_toDigit_of_mem hdigits hc)

/-- A printed number within the bound is read back. -/
theorem parseUnsigned_toDigits {max n : Nat} (h : n ≤ max) :
    parseUnsigned max (Nat.toDigits 10 n) = some n := by
  have hplus : '+' ∉ Nat.toDigits 10 n := by
    intro hmem
    have hdigit := isSome_toDigit_of_mem (fromDigits_toDigits (by omega) (by omega) n) hmem
    exact absurd hdigit (by decide)
  unfold parseUnsigned
  rw [stripPrefix_eq_none hplus, Option.getD_none, if_neg Nat.toDigits_ne_nil,
    fromDigits_toDigits (by omega) (by omega), Option.filter_some, if_pos (by simpa using h)]

/-! ## Numbers with a separator between them -/

/-- `n` in `k` digits to the base `b`, the first one counting most. -/
def toBase (b : Nat) : Nat → Nat → List Nat
  | 0, _ => []
  | k + 1, n => toBase b k (n / b) ++ [n % b]

def ofBase (b : Nat) (digits : List Nat) : Nat := digits.foldl (fun n d => n * b + d) 0

theorem length_toBase (b : Nat) : ∀ k n : Nat, (toBase b k n).length = k
  | 0, _ => rfl
  | k + 1, n => by rw [toBase, List.length_append, length_toBase b k, List.length_singleton]

theorem lt_of_mem_toBase {b : Nat} (hb : 0 < b) :
    ∀ {k n d : Nat}, d ∈ toBase b k n → d < b
  | 0, _, _, h => by cases h
  | k + 1, n, d, h => by
    rcases List.mem_append.mp h with h | h
    · exact lt_of_mem_toBase hb h
    · rw [List.mem_singleton.mp h]
      exact Nat.mod_lt _ hb

/-- The digits give back the number, as far as they reach. -/
theorem ofBase_toBase (b : Nat) : ∀ k n : Nat, ofBase b (toBase b k n) = n % b ^ k
  | 0, n => by simp [toBase, ofBase, Nat.mod_one]
  | k + 1, n => by
    have hconcat : ofBase b (toBase b k (n / b) ++ [n % b]) =
        ofBase b (toBase b k (n / b)) * b + n % b := by simp [ofBase]
    rw [toBase, hconcat, ofBase_toBase b k, Nat.pow_succ', Nat.mod_mul]
    rw [Nat.mul_comm b, Nat.add_comm]

/-- A number below `bound` of at most `width` digits, with zeros before it or not. -/
def readField (radix width : Nat) (zeros : Bool) (bound : Nat) (s : Str) : Option Nat :=
  if s = [] ∨ width < s.length ∨ (zeros = false ∧ 1 < s.length ∧ s.head? = some '0') then none
  else (fromDigits radix s).filter (· < bound)

theorem digit_of_readField {radix width bound v : Nat} {zeros : Bool} {s : Str}
    (h : readField radix width zeros bound s = some v) {c : Char} (hc : c ∈ s) :
    (toDigit radix c).isSome = true := by
  unfold readField at h
  split at h
  · cases h
  · exact isSome_toDigit_of_mem (Option.filter_eq_some_iff.mp h).1 hc

/-- `count` texts with `sep` between them, each read by `read`. -/
def readFields (sep : Char) (count : Nat) (read : Str → Option Nat) (s : Str) :
    Option (List Nat) :=
  if (s.splitOn sep).length = count then (s.splitOn sep).mapM read else none

section Fields

variable {sep : Char} {count : Nat} {read : Str → Option Nat} {s : Str} {values : List Nat}

/-- The characters of the fields. -/
theorem mem_intercalate {parts : List Str} {c : Char} (h : c ∈ [sep].intercalate parts) :
    c = sep ∨ ∃ part ∈ parts, c ∈ part := by
  induction parts with
  | nil => cases h
  | cons part parts ih =>
    cases parts with
    | nil => exact .inr ⟨part, by simp, by simpa using h⟩
    | cons next parts =>
      rw [List.intercalate_cons_cons, List.append_assoc, List.mem_append, List.mem_append] at h
      rcases h with h | h | h
      · exact .inr ⟨part, by simp, h⟩
      · exact .inl (List.mem_singleton.mp h)
      · rcases ih h with rfl | ⟨p, hp, hc⟩
        · exact .inl rfl
        · exact .inr ⟨p, List.mem_cons_of_mem _ hp, hc⟩

theorem count_intercalate (sep : Char) (parts : List Str) :
    parts.length - 1 ≤ ([sep].intercalate parts).count sep := by
  induction parts with
  | nil => simp
  | cons part parts ih =>
    cases parts with
    | nil => simp
    | cons next parts =>
      rw [List.intercalate_cons_cons, List.count_append, List.count_append,
        List.count_singleton_self]
      simp only [List.length_cons] at ih ⊢
      omega

theorem read_of_mapM {parts : List Str} (h : parts.mapM read = some values) {part : Str}
    (hpart : part ∈ parts) : ∃ v, read part = some v := by
  induction parts generalizing values with
  | nil => cases hpart
  | cons p parts ih =>
    rw [List.mapM_cons] at h
    obtain ⟨v, hv, hrest⟩ := Option.bind_eq_some_iff.mp h
    obtain ⟨vs, hvs, -⟩ := Option.bind_eq_some_iff.mp hrest
    rcases List.mem_cons.mp hpart with rfl | hpart
    · exact ⟨v, hv⟩
    · exact ih hvs hpart

/-- What is printed part by part is read back. -/
theorem mapM_read_fmt {fmt : Nat → Str} (h : ∀ v ∈ values, read (fmt v) = some v) :
    (values.map fmt).mapM read = some values := by
  induction values with
  | nil => rfl
  | cons v values ih =>
    rw [List.map_cons, List.mapM_cons, h v List.mem_cons_self,
      ih fun w hw => h w (List.mem_cons_of_mem _ hw)]
    rfl

/-- Outside of the separators there are only parts that can be read. -/
theorem mem_of_readFields (h : readFields sep count read s = some values) {c : Char}
    (hc : c ∈ s) : c = sep ∨ ∃ part v, read part = some v ∧ c ∈ part := by
  unfold readFields at h
  split at h
  · have hjoin : [sep].intercalate (s.splitOn sep) = s := List.intercalate_splitOn sep
    rw [← hjoin] at hc
    rcases mem_intercalate hc with hsep | ⟨part, hpart, hmem⟩
    · exact .inl hsep
    · obtain ⟨v, hv⟩ := read_of_mapM h hpart
      exact .inr ⟨part, v, hv, hmem⟩
  · cases h

/-- Fields are read only with enough separators. -/
theorem count_of_readFields (h : readFields sep count read s = some values) :
    count - 1 ≤ s.count sep := by
  unfold readFields at h
  split at h
  · next hlen =>
    have hcount := count_intercalate sep (s.splitOn sep)
    rw [List.intercalate_splitOn, hlen] at hcount
    exact hcount
  · cases h

/-- Printed fields are read back. -/
theorem readFields_intercalate {fmt : Nat → Str} (hne : values ≠ []) (hlen : values.length = count)
    (hread : ∀ v ∈ values, read (fmt v) = some v) (hsep : ∀ v ∈ values, sep ∉ fmt v) :
    readFields sep count read ([sep].intercalate (values.map fmt)) = some values := by
  have hsplit : ([sep].intercalate (values.map fmt)).splitOn sep = values.map fmt :=
    List.splitOn_intercalate sep (by simpa using hsep) (by simpa using hne)
  unfold readFields
  rw [hsplit, List.length_map, if_pos hlen]
  exact mapM_read_fmt hread

end Fields

end Text

end Infra
