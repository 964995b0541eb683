import SocksServer.Infra.Bytes
import Mathlib.Data.List.Nodup

/-!
# `auth/user_store.rs`

Usernames and passwords are kept as blocks of one length: a length byte and the value, padded
with zeros. `ct_eq` compares blocks; here it is equality.
-/

namespace SocksServer

open Infra

/-- Longest username or password RFC 1929 can carry. -/
def maxCredentialLen : Nat := 255

/-- Length byte and up to 255 bytes of value. -/
def blockLen : Nat := maxCredentialLen + 1

structure Block where
  bytes : Bytes
  length_eq : bytes.length = blockLen

instance : DecidableEq Block := fun a b =>
  decidable_of_iff (a.bytes = b.bytes) ⟨fun h => by cases a; cases b; cases h; rfl, fun h => h ▸ rfl⟩

namespace Block

def zero : Block := ⟨List.replicate blockLen 0, List.length_replicate⟩

/-- The value behind its length byte, where the range `1..=value.len()` lies in the block. -/
def ofValue (value : Bytes) (h : value.length ≤ maxCredentialLen) : Block where
  bytes := UInt8.ofNat value.length :: value ++
    List.replicate (maxCredentialLen - value.length) 0
  length_eq := by simp [blockLen]; omega

end Block

/-- `none` for an empty value and for one that is too long. -/
def toBlock (value : Bytes) : Option Block :=
  if h : value.length ≤ maxCredentialLen then
    if value.length > 0 then some (.ofValue value h) else none
  else none

/-! ## The store -/

structure UserCredentials where
  username : String
  password : String
  deriving DecidableEq, Repr

/-- Invalid user list in the settings. -/
inductive CredentialError where
  | noUsers
  | invalidUsername (index : Nat)
  | invalidPassword (username : String)
  | duplicateUsername (username : String)
  deriving DecidableEq, Repr

def CredentialError.fmt : CredentialError → String
  | .noUsers => "at least one user is required"
  | .invalidUsername index => "user #" ++ toString index ++ ": username must be 1..=255 bytes"
  | .invalidPassword username => "user '" ++ username ++ "': password must be 1..=255 bytes"
  | .duplicateUsername username => "username '" ++ username ++ "' is listed more than once"

structure StoredUser where
  name : String
  username : Block
  password : Block
  username_eq : toBlock (strBytes name) = some username

/-- No two users of one name. -/
structure UserStore where
  users : List StoredUser
  nodup : (users.map (·.name)).Nodup

namespace UserStore

/-- The users read so far. -/
abbrev Users := { users : List StoredUser // (users.map (·.name)).Nodup }

/-- One round of the loop of `new`. -/
def addUser (users : Users) (index : Nat) (credential : UserCredentials) :
    Except CredentialError Users :=
  match hu : toBlock (strBytes credential.username) with
  | none => .error (.invalidUsername index)
  | some username =>
    match toBlock (strBytes credential.password) with
    | none => .error (.invalidPassword credential.username)
    | some password =>
      if hd : users.val.any (fun user => user.name == credential.username) then
        .error (.duplicateUsername credential.username)
      else
        .ok ⟨users.val ++ [⟨credential.username, username, password, hu⟩], by
          have hnot : credential.username ∉ users.val.map (·.name) := by
            simpa using hd
          simpa [List.nodup_append, users.property] using
            fun user huser h => hnot (List.mem_map.mpr ⟨user, huser, h⟩)⟩

def addUsers (users : Users) (index : Nat) : List UserCredentials → Except CredentialError Users
  | [] => .ok users
  | credential :: rest =>
    match addUser users index credential with
    | .ok users => addUsers users (index + 1) rest
    | .error e => .error e

/-- `UserStore::new` -/
def new (credentials : List UserCredentials) : Except CredentialError UserStore :=
  if credentials.isEmpty then .error .noUsers
  else
    match addUsers ⟨[], by simp⟩ 0 credentials with
    | .ok users => .ok ⟨users.val, users.property⟩
    | .error e => .error e

/--
The username when the pair matches a configured user. Every user is compared; an empty or
over-long value is compared as the zero block.
-/
def verify (store : UserStore) (username password : Bytes) : Option String :=
  let username := (toBlock username).getD .zero
  let password := (toBlock password).getD .zero
  store.users.foldl
    (fun matched user =>
      if user.username = username ∧ user.password = password then some user.name else matched)
    none

end UserStore

/-- One user `a` with password `b`. -/
def UserStore.oneUser : UserStore where
  users := [⟨"a", .ofValue [97] (by decide), .ofValue [98] (by decide), by decide +kernel⟩]
  nodup := List.nodup_singleton _

end SocksServer
