import Mathlib.Data.List.Induction
import Mathlib.Tactic.Ring

/-!
# Byte strings and big-endian integers

Network order: the most significant byte comes first.

* `ofBeBytes` reads a byte string of any length as a number
* `toBeBytes k n` writes the low `k` bytes of `n`

The two are inverse to each other on strings of length `k` and on numbers below `256 ^ k`.
Every fixed-width field of a wire format (ports, addresses) is an instance.
-/

namespace Infra

abbrev Bytes := List UInt8

/-! ## Reading and writing -/

/-- The number a byte string denotes, most significant byte first. -/
def ofBeBytes (bs : Bytes) : Nat := bs.foldl (fun n b => n * 256 + b.toNat) 0

/-- The low `k` bytes of `n`, most significant byte first. -/
def toBeBytes : Nat → Nat → Bytes
  | 0, _ => []
  | k + 1, n => toBeBytes k (n / 256) ++ [UInt8.ofNat n]

@[simp] theorem ofBeBytes_nil : ofBeBytes [] = 0 := rfl

theorem ofBeBytes_concat (bs : Bytes) (b : UInt8) :
    ofBeBytes (bs ++ [b]) = ofBeBytes bs * 256 + b.toNat := by
  simp [ofBeBytes]

@[simp] theorem length_toBeBytes : ∀ k n : Nat, (toBeBytes k n).length = k
  | 0, _ => rfl
  | k + 1, n => by simp [toBeBytes, length_toBeBytes k]

theorem ofBeBytes_lt (bs : Bytes) : ofBeBytes bs < 256 ^ bs.length := by
  induction bs using List.reverseRecOn with
  | nil => simp
  | append_singleton bs b ih =>
    have hb : b.toNat < 256 := b.toNat_lt
    rw [ofBeBytes_concat, List.length_append, List.length_singleton, pow_succ]
    omega

/-! ## Round trips -/

/-- Writing `k` bytes and reading them back keeps the number modulo `256 ^ k`. -/
theorem ofBeBytes_toBeBytes : ∀ k n : Nat, ofBeBytes (toBeBytes k n) = n % 256 ^ k
  | 0, n => by simp [toBeBytes, Nat.mod_one]
  | k + 1, n => by
    rw [toBeBytes, ofBeBytes_concat, ofBeBytes_toBeBytes k (n / 256)]
    have hlow : (UInt8.ofNat n).toNat = n % 256 := by simp
    rw [hlow, pow_succ, Nat.mul_comm (256 ^ k) 256, Nat.mod_mul]
    omega

/-- Reading a byte string and writing it back gives the string. -/
theorem toBeBytes_ofBeBytes (bs : Bytes) : toBeBytes bs.length (ofBeBytes bs) = bs := by
  induction bs using List.reverseRecOn with
  | nil => rfl
  | append_singleton bs b ih =>
    have hb : b.toNat < 256 := b.toNat_lt
    have hdiv : (ofBeBytes bs * 256 + b.toNat) / 256 = ofBeBytes bs := by omega
    have hlow : UInt8.ofNat (ofBeBytes bs * 256 + b.toNat) = b := by
      apply UInt8.toNat_inj.mp
      simp only [UInt8.toNat_ofNat', Nat.reducePow]
      omega
    rw [List.length_append, List.length_singleton, toBeBytes, ofBeBytes_concat, hdiv, hlow, ih]

/-! ## Strings -/

/-- `str::as_bytes` -/
def strBytes (s : String) : Bytes := s.toByteArray.data.toList

/-- `String::from_utf8` -/
def fromUtf8 (raw : Bytes) : Option String := String.fromUTF8? raw.toByteArray

/-- An ASCII byte is a character of one byte. -/
theorem utf8EncodeChar_of_lt {b : UInt8} (h : b.toNat < 128) :
    String.utf8EncodeChar (Char.ofUInt8 b) = [b] := by
  have hall : ∀ n : Fin 256, n.val < 128 →
      String.utf8EncodeChar (Char.ofUInt8 (UInt8.ofFin n)) = [UInt8.ofFin n] := by
    decide +kernel
  exact hall b.toFin h

/-- ASCII is UTF-8. -/
theorem isValidUTF8_of_ascii {raw : Bytes} (h : ∀ b ∈ raw, b.toNat < 128) :
    raw.toByteArray.IsValidUTF8 := by
  refine ⟨raw.map Char.ofUInt8, ?_⟩
  unfold List.utf8Encode
  congr 1
  induction raw with
  | nil => rfl
  | cons b raw ih =>
    rw [List.map_cons, List.flatMap_cons, utf8EncodeChar_of_lt (h b (by simp)),
      ← ih fun c hc => h c (by simp [hc])]
    rfl

theorem strBytes_fromUtf8 {raw : Bytes} {host : String} (h : fromUtf8 raw = some host) :
    strBytes host = raw := by
  unfold fromUtf8 String.fromUTF8? at h
  split at h
  · rw [← Option.some.inj h]
    simp [strBytes, String.fromUTF8]
  · simp at h

theorem fromUtf8_strBytes (host : String) : fromUtf8 (strBytes host) = some host := by
  have hb : (strBytes host).toByteArray = host.toByteArray := by
    apply ByteArray.ext
    simp [strBytes]
  unfold fromUtf8 String.fromUTF8?
  rw [hb, dif_pos host.isValidUTF8]
  rfl

end Infra
