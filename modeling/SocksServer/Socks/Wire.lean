import SocksServer.Infra.Stream
import SocksServer.Net

/-!
# `socks/consts.rs`, `socks/protocol_error.rs`, `socks/wire.rs`

Constants of RFC 1928 and RFC 1929, the error type of the message readers and the encoding
helpers shared by the message types.

A reader is a task that reads its stream and may stop with a `ProtocolError`. It is the same
for the server and the client side, so the signature of the task stays a parameter.
-/

namespace SocksServer

open Infra

/-! ## Constants -/

def socksVersion : UInt8 := 0x05
def authVersion : UInt8 := 0x01

def methodUserPass : UInt8 := 0x02
def methodNoAcceptable : UInt8 := 0xFF

def cmdConnect : UInt8 := 0x01
def cmdBind : UInt8 := 0x02
def cmdUdpAssociate : UInt8 := 0x03

def atypIpv4 : UInt8 := 0x01
def atypDomain : UInt8 := 0x03
def atypIpv6 : UInt8 := 0x04

def authStatusSuccess : UInt8 := 0x00
def authStatusFailure : UInt8 := 0x01

/-! ## Errors -/

/-- Malformed or unsupported SOCKS5 input, or an I/O failure while reading it. -/
inductive ProtocolError where
  | io (error : IoError)
  | unsupportedVersion (version : UInt8)
  | noMethods
  | unsupportedAuthVersion (version : UInt8)
  | unsupportedAddressType (addressType : UInt8)
  | invalidDomain
  | fieldTooLong
  deriving DecidableEq, Repr

/-! ## Readers -/

abbrev Reader (S : Sig) (α : Type) := ExceptT ProtocolError (Task S) α

section Read

variable {S : Sig}

/-- `read_exact` with `?`: an I/O error ends the reader. -/
def readBytes (n : Nat) : Reader S Bytes :=
  ExceptT.mk ((Task.readExact n).bind fun
    | .ok bs => .done (.ok bs)
    | .error e => .done (.error (.io e)))

def readU8 : Reader S UInt8 := do
  let bs ← readBytes 1
  return bs.headD 0

def readU16 : Reader S UInt16 := do
  let bs ← readBytes 2
  return portOfBytes bs

/-- Reads a field prefixed with its one-byte length. -/
def readU8Prefixed : Reader S Bytes := do
  let len ← readU8
  readBytes len.toNat

end Read

/-! ## Writers -/

/-- `u8::try_from` of a length. -/
def lengthByte (field : Bytes) : Except ProtocolError UInt8 :=
  if field.length ≤ 255 then .ok (UInt8.ofNat field.length) else .error .fieldTooLong

/-- Appends a field prefixed with its one-byte length. -/
def pushU8Prefixed (out field : Bytes) : Except ProtocolError Bytes := do
  let len ← lengthByte field
  return out ++ [len] ++ field

/-- Appends `ATYP | ADDR | PORT` for an IP socket address. -/
def pushSocketAddr (out : Bytes) (addr : SocketAddr) : Bytes :=
  (match addr with
    | .v4 ip _ => out ++ [atypIpv4] ++ ip.octets
    | .v6 ip _ _ _ => out ++ [atypIpv6] ++ ip.octets) ++ portBytes addr.port

/-- A field of at most 255 bytes has a length byte. -/
theorem lengthByte_ok {field : Bytes} (h : field.length ≤ 255) :
    lengthByte field = .ok (UInt8.ofNat field.length) := if_pos h

theorem toNat_lengthByte {n : Nat} (h : n ≤ 255) : (UInt8.ofNat n).toNat = n := by
  simp; omega

/-- What `push_u8_prefixed` appends to a message. -/
theorem pushU8Prefixed_ok {out field : Bytes} (h : field.length ≤ 255) :
    pushU8Prefixed out field = .ok (out ++ [UInt8.ofNat field.length] ++ field) := by
  simp only [pushU8Prefixed, lengthByte_ok h]
  rfl

/-! ## Reading a field, step by step

`feed` for a message that arrives completely, `decode` for an arbitrary slice, `HandsOn` for
the errors.
-/

section Lemmas

variable {S : Sig} {α β : Type}

/-- The reader ends with `ProtocolError::Io` on every I/O error. -/
abbrev HandsOnIo (p : Reader S α) : Prop :=
  Task.HandsOn (fun e => Except.error (ProtocolError.io e)) p.run

/-- The `?` behind a read: an I/O error ends the whole reader. -/
theorem run_readBytes_bind (n : Nat) (f : Bytes → Reader S α) :
    (readBytes n >>= f).run = (Task.readExact n).bind fun
      | .ok bs => (f bs).run
      | .error e => .done (.error (.io e)) := by
  show ((Task.readExact n).bind _).bind _ = _
  rw [Task.bind_assoc]
  congr 1
  funext r
  cases r <;> rfl

/-- Reading exactly what is there. -/
theorem feed_readBytes_bind {n : Nat} {c : Bytes} (h : c.length = n) (f : Bytes → Reader S α)
    (d : Bytes) : (readBytes n >>= f).run.feed (c ++ d) = (f c).run.feed d := by
  rw [run_readBytes_bind, Task.feed_readExact_bind h]

/-- Reading from a whole input: the field and what follows, or the end of the stream. -/
theorem decode_readBytes_bind (n : Nat) (f : Bytes → Reader S α) (input : Bytes) :
    (readBytes n >>= f).run.decode input =
      if n ≤ input.length then (f (input.take n)).run.decode (input.drop n)
      else (.done (.error (.io .earlyEof)), []) := by
  rw [run_readBytes_bind, Task.decode_readExact_bind]
  rfl

/-- A reader that starts with a field hands on its I/O errors. -/
theorem handsOn_readBytes_bind {n : Nat} {f : Bytes → Reader S α} (h : ∀ c, HandsOnIo (f c)) :
    HandsOnIo (readBytes n >>= f) := by
  unfold HandsOnIo
  rw [run_readBytes_bind]
  exact Task.HandsOn.readExact_bind (fun _ => rfl) h

theorem handsOn_pure (a : α) : HandsOnIo (pure a : Reader S α) := trivial

theorem handsOn_throw (e : ProtocolError) : HandsOnIo (throw e : Reader S α) := trivial

theorem readU8_bind (f : UInt8 → Reader S α) :
    (readU8 >>= f) = (readBytes 1 >>= fun bs => f (bs.headD 0)) := by
  simp [readU8]

theorem readU16_bind (f : UInt16 → Reader S α) :
    (readU16 >>= f) = (readBytes 2 >>= fun bs => f (portOfBytes bs)) := by
  simp [readU16]

theorem readU8Prefixed_bind (f : Bytes → Reader S α) :
    (readU8Prefixed >>= f) = (readU8 >>= fun len => readBytes len.toNat >>= f) := by
  simp [readU8Prefixed]

/-- Reading the byte that is there. -/
theorem feed_readU8_bind (b : UInt8) (f : UInt8 → Reader S α) (d : Bytes) :
    (readU8 >>= f).run.feed (b :: d) = (f b).run.feed d := by
  rw [readU8_bind]
  exact feed_readBytes_bind (c := [b]) rfl _ d

/-- Reading the port that is there. -/
theorem feed_readU16_bind (port : UInt16) (f : UInt16 → Reader S α) (d : Bytes) :
    (readU16 >>= f).run.feed (portBytes port ++ d) = (f port).run.feed d := by
  rw [readU16_bind, feed_readBytes_bind (length_portBytes port), portOfBytes_portBytes]

/-- Reading the prefixed field that is there. -/
theorem feed_readU8Prefixed_bind {field : Bytes} (h : field.length ≤ 255)
    (f : Bytes → Reader S α) (d : Bytes) :
    (readU8Prefixed >>= f).run.feed (UInt8.ofNat field.length :: field ++ d) =
      (f field).run.feed d := by
  rw [readU8Prefixed_bind, List.cons_append, feed_readU8_bind,
    feed_readBytes_bind (toNat_lengthByte h).symm]

theorem handsOn_readU8_bind {f : UInt8 → Reader S α} (h : ∀ b, HandsOnIo (f b)) :
    HandsOnIo (readU8 >>= f) := by
  rw [readU8_bind]
  exact handsOn_readBytes_bind fun c => h _

theorem handsOn_readU16_bind {f : UInt16 → Reader S α} (h : ∀ port, HandsOnIo (f port)) :
    HandsOnIo (readU16 >>= f) := by
  rw [readU16_bind]
  exact handsOn_readBytes_bind fun c => h _

theorem handsOn_readU8Prefixed_bind {f : Bytes → Reader S α} (h : ∀ c, HandsOnIo (f c)) :
    HandsOnIo (readU8Prefixed >>= f) := by
  rw [readU8Prefixed_bind]
  exact handsOn_readU8_bind fun _ => handsOn_readBytes_bind h

/-! ## What a successful reader has consumed -/

/-- The reader accepts the slice `input` as `m` and leaves `rest` unread. -/
def Accepts (p : Reader S α) (input : Bytes) (m : α) (rest : Bytes) : Prop :=
  p.run.decode input = (.done (.ok m), rest)

theorem accepts_pure {a m : α} {input rest : Bytes} :
    Accepts (pure a : Reader S α) input m rest ↔ a = m ∧ input = rest := by
  show (Task.done (Except.ok a), input) = (Task.done (.ok m), rest) ↔ _
  simp

theorem not_accepts_throw {e : ProtocolError} {m : α} {input rest : Bytes} :
    ¬ Accepts (throw e : Reader S α) input m rest := by
  intro h
  have he : (Task.done (Except.error e), input) =
      ((Task.done (.ok m), rest) : Task S (Except ProtocolError α) × Bytes) := h
  simp at he

/-- An accepted input starts with the field. -/
theorem accepts_readBytes_bind {n : Nat} {f : Bytes → Reader S α} {m : α} {input rest : Bytes}
    (h : Accepts (readBytes n >>= f) input m rest) :
    ∃ c tail, input = c ++ tail ∧ c.length = n ∧ Accepts (f c) tail m rest := by
  unfold Accepts at h
  rw [decode_readBytes_bind] at h
  split at h
  · next hn =>
    exact ⟨input.take n, input.drop n, (List.take_append_drop n input).symm, by simp; omega, h⟩
  · simp at h

/-- An accepted input starts with the byte. -/
theorem accepts_readU8_bind {f : UInt8 → Reader S α} {m : α} {input rest : Bytes}
    (h : Accepts (readU8 >>= f) input m rest) :
    ∃ b tail, input = b :: tail ∧ Accepts (f b) tail m rest := by
  rw [readU8_bind] at h
  obtain ⟨c, tail, rfl, hlen, h⟩ := accepts_readBytes_bind h
  match c, hlen with
  | [b], _ => exact ⟨b, tail, rfl, h⟩

/-- An accepted input starts with the bytes of the port. -/
theorem accepts_readU16_bind {f : UInt16 → Reader S α} {m : α} {input rest : Bytes}
    (h : Accepts (readU16 >>= f) input m rest) :
    ∃ port tail, input = portBytes port ++ tail ∧ Accepts (f port) tail m rest := by
  rw [readU16_bind] at h
  obtain ⟨c, tail, rfl, hlen, h⟩ := accepts_readBytes_bind h
  exact ⟨portOfBytes c, tail, by rw [portBytes_portOfBytes hlen], h⟩

/-- An accepted input starts with the length of the field and the field. -/
theorem accepts_readU8Prefixed_bind {f : Bytes → Reader S α} {m : α} {input rest : Bytes}
    (h : Accepts (readU8Prefixed >>= f) input m rest) :
    ∃ field tail, field.length ≤ 255 ∧
      input = UInt8.ofNat field.length :: field ++ tail ∧ Accepts (f field) tail m rest := by
  rw [readU8Prefixed_bind] at h
  obtain ⟨len, tail, rfl, h⟩ := accepts_readU8_bind h
  obtain ⟨field, tail, rfl, hlen, h⟩ := accepts_readBytes_bind (n := len.toNat) (f := f) h
  have hlt : len.toNat < 256 := len.toNat_lt
  refine ⟨field, tail, by omega, ?_, h⟩
  rw [hlen, UInt8.ofNat_toNat]
  rfl

end Lemmas

end SocksServer
