import SocksServer.Auth.UserStore
import Mathlib.Data.List.Forall2

/-!
# Which credentials the store accepts

`toBlock` is injective and never gives the zero block, so comparing blocks is comparing byte
strings, and the zero block that stands for a value no user can have matches nobody.

* `UserStore.new_eq_error_iff` : the error of the first user in list order that has one
* `UserStore.verify_eq_some_iff` : the pairs a store accepts are the configured pairs
-/

namespace SocksServer

open Infra

/-! ## Blocks -/

/-- What a username and a password have to be. -/
def CredentialLen (value : Bytes) : Prop := 1 ≤ value.length ∧ value.length ≤ maxCredentialLen

instance (value : Bytes) : Decidable (CredentialLen value) := inferInstanceAs (Decidable (_ ∧ _))

theorem toBlock_eq_none_iff {value : Bytes} : toBlock value = none ↔ ¬CredentialLen value := by
  unfold toBlock CredentialLen
  split
  · split
    · rename_i hle hpos
      have hpos : 1 ≤ value.length := hpos
      simp [hle, hpos]
    · simp; omega
  · simp_all

theorem toBlock_bytes {value : Bytes} {block : Block} (h : toBlock value = some block) :
    block.bytes = UInt8.ofNat value.length :: value ++
      List.replicate (maxCredentialLen - value.length) 0 := by
  unfold toBlock at h
  split at h
  · split at h
    · rw [← Option.some.inj h]
      rfl
    · cases h
  · cases h

theorem toBlock_credentialLen {value : Bytes} {block : Block} (h : toBlock value = some block) :
    CredentialLen value := by
  by_contra hn
  rw [toBlock_eq_none_iff.mpr hn] at h
  cases h

/-- The length byte tells values apart that differ in trailing zeros only. -/
theorem toBlock_inj {u v : Bytes} {block : Block} (hu : toBlock u = some block)
    (hv : toBlock v = some block) : u = v := by
  have hlu := toBlock_credentialLen hu
  have hlv := toBlock_credentialLen hv
  unfold CredentialLen maxCredentialLen at hlu hlv
  have h := (toBlock_bytes hu).symm.trans (toBlock_bytes hv)
  obtain ⟨hlen, hrest⟩ := List.cons.inj h
  have hlen : u.length = v.length := by
    have hb := congrArg UInt8.toNat hlen
    simp only [UInt8.toNat_ofNat', Nat.reducePow] at hb
    omega
  exact (List.append_inj hrest hlen).1

/-- The length byte of a stored block is not zero. -/
theorem toBlock_ne_zero {value : Bytes} {block : Block} (h : toBlock value = some block) :
    block ≠ .zero := by
  rintro rfl
  have hlen := toBlock_credentialLen h
  have hb := (List.cons.inj (toBlock_bytes h)).1
  unfold CredentialLen maxCredentialLen at hlen
  have hb := congrArg UInt8.toNat hb
  simp only [UInt8.toNat_ofNat', Nat.reducePow, UInt8.toNat_zero] at hb
  omega

/-- Comparing the block of a received value with a stored one compares the values. -/
theorem getD_toBlock_eq_iff {stored value : Bytes} {block : Block}
    (h : toBlock stored = some block) :
    block = (toBlock value).getD .zero ↔ stored = value := by
  constructor
  · intro heq
    cases hv : toBlock value with
    | none =>
      rw [hv] at heq
      exact absurd heq (toBlock_ne_zero h)
    | some block' =>
      rw [hv, Option.getD_some] at heq
      exact toBlock_inj (heq ▸ h) hv
  · rintro rfl
    rw [h, Option.getD_some]

/-! ## Indices

`toBlock` again with the slice operations it is written with; `none` is a panic.
-/

/-- `slice[index] = value` -/
def setIndex (slice : Bytes) (index : Nat) (value : UInt8) : Option Bytes :=
  if index < slice.length then some (slice.set index value) else none

/-- `slice[start..=last].copy_from_slice(source)` -/
def copyFromSlice (slice : Bytes) (start last : Nat) (source : Bytes) : Option Bytes :=
  if start ≤ last + 1 ∧ last + 1 ≤ slice.length ∧ last + 1 - start = source.length then
    some (slice.take start ++ source ++ slice.drop (last + 1))
  else none

def toBlockIndexed (value : Bytes) : Option (Option Bytes) :=
  match (if value.length < 256 then some (UInt8.ofNat value.length) else none).filter (0 < ·) with
  | none => some none
  | some len => do
    let block := List.replicate blockLen 0
    let block ← setIndex block 0 len
    let block ← copyFromSlice block 1 value.length value
    return some block

theorem toBlockIndexed_eq (value : Bytes) :
    toBlockIndexed value = some ((toBlock value).map Block.bytes) := by
  by_cases h : CredentialLen value
  · obtain ⟨block, hblock⟩ : ∃ block, toBlock value = some block := by
      apply Option.ne_none_iff_exists'.mp
      exact fun hn => toBlock_eq_none_iff.mp hn h
    unfold CredentialLen maxCredentialLen at h
    have hlen : 0 < UInt8.ofNat value.length := by
      rw [UInt8.lt_iff_toNat_lt, UInt8.toNat_ofNat']
      simp
      omega
    have hset : setIndex (List.replicate blockLen 0) 0 (UInt8.ofNat value.length)
        = some (UInt8.ofNat value.length :: List.replicate maxCredentialLen 0) := by
      rw [setIndex, if_pos (by simp [blockLen])]
      rw [blockLen, List.replicate_succ, List.set_cons_zero]
    have hcopy : copyFromSlice (UInt8.ofNat value.length :: List.replicate maxCredentialLen 0) 1
        value.length value = some block.bytes := by
      have hin : 1 ≤ value.length + 1 ∧ value.length + 1 ≤
          (UInt8.ofNat value.length :: List.replicate maxCredentialLen 0).length ∧
          value.length + 1 - 1 = value.length := by
        rw [List.length_cons, List.length_replicate, maxCredentialLen]
        omega
      rw [toBlock_bytes hblock, copyFromSlice, if_pos hin, List.take_succ_cons, List.take_zero,
        List.drop_succ_cons, List.drop_replicate]
      rfl
    unfold toBlockIndexed
    rw [if_pos (by omega), Option.filter_some, if_pos (by simpa using hlen)]
    simp [hset, hcopy, hblock]
  · rw [toBlock_eq_none_iff.mpr h, Option.map_none]
    unfold CredentialLen maxCredentialLen at h
    unfold toBlockIndexed
    by_cases hlt : value.length < 256
    · have hzero : value.length = 0 := by omega
      rw [if_pos hlt, hzero, Option.filter_some, if_neg (by simp)]
    · rw [if_neg hlt, Option.filter_none]

/-! ## Building the store -/

namespace UserCredentials

/-- Both values fit a block. -/
def WellSized (c : UserCredentials) : Prop :=
  CredentialLen (strBytes c.username) ∧ CredentialLen (strBytes c.password)

end UserCredentials

/-- Users that can be configured together. -/
def Configurable (credentials : List UserCredentials) : Prop :=
  (∀ c ∈ credentials, c.WellSized) ∧ (credentials.map (·.username)).Nodup

/-- What is wrong with `c` behind the users `before`: name, then password, then the name again. -/
def offence (before : List UserCredentials) (c : UserCredentials) : Option CredentialError :=
  if ¬CredentialLen (strBytes c.username) then some (.invalidUsername before.length)
  else if ¬CredentialLen (strBytes c.password) then some (.invalidPassword c.username)
  else if c.username ∈ before.map (·.username) then some (.duplicateUsername c.username)
  else none

/-- Nothing is wrong with a user exactly when it can be configured behind the others. -/
theorem offence_eq_none_iff {before : List UserCredentials} {c : UserCredentials}
    (hb : Configurable before) :
    offence before c = none ↔ Configurable (before ++ [c]) := by
  have hsplit : Configurable (before ++ [c]) ↔
      c.WellSized ∧ c.username ∉ before.map (·.username) := by
    unfold Configurable
    rw [List.map_append, List.map_singleton, List.nodup_append]
    constructor
    · rintro ⟨hsize, -, -, hne⟩
      refine ⟨hsize c (by simp), ?_⟩
      intro hmem
      exact hne _ hmem _ (List.mem_singleton_self _) rfl
    · rintro ⟨hsize, hnot⟩
      refine ⟨?_, hb.2, List.nodup_singleton _, ?_⟩
      · intro d hd
        rcases List.mem_append.mp hd with hd | hd
        · exact hb.1 d hd
        · rwa [List.mem_singleton.mp hd]
      · intro a ha b hbmem hab
        rw [List.mem_singleton.mp hbmem] at hab
        exact hnot (hab ▸ ha)
  rw [hsplit]
  unfold offence UserCredentials.WellSized
  split_ifs <;> simp_all

theorem Configurable.prefix {before after : List UserCredentials}
    (h : Configurable (before ++ after)) : Configurable before := by
  refine ⟨fun c hc => h.1 c (List.mem_append_left _ hc), ?_⟩
  have := h.2
  rw [List.map_append] at this
  exact this.of_append_left

namespace StoredUser

/-- The stored form of a configured user. -/
def Stores (c : UserCredentials) (user : StoredUser) : Prop :=
  user.name = c.username ∧ toBlock (strBytes c.password) = some user.password

end StoredUser

namespace UserStore

theorem names_of_stores {credentials : List UserCredentials} {users : List StoredUser}
    (h : List.Forall₂ StoredUser.Stores credentials users) :
    users.map (·.name) = credentials.map (·.username) := by
  induction h with
  | nil => rfl
  | cons h _ ih => rw [List.map_cons, List.map_cons, h.1, ih]

theorem any_name_iff {before : List UserCredentials} {users : List StoredUser}
    (hs : List.Forall₂ StoredUser.Stores before users) (name : String) :
    users.any (fun user => user.name == name) = true ↔ name ∈ before.map (·.username) := by
  rw [← names_of_stores hs]
  simp

/-- A round reports what is wrong with its user. -/
theorem addUser_eq_error {before : List UserCredentials} {users : Users} {c : UserCredentials}
    {e : CredentialError} (hs : List.Forall₂ StoredUser.Stores before users.val)
    (h : offence before c = some e) : addUser users before.length c = .error e := by
  unfold addUser
  split
  · rename_i hu
    rw [offence, if_pos (toBlock_eq_none_iff.mp hu)] at h
    rw [Option.some.inj h]
  · rename_i username hu
    rw [offence, if_neg (not_not.mpr (toBlock_credentialLen hu))] at h
    split
    · rename_i hp
      rw [if_pos (toBlock_eq_none_iff.mp hp)] at h
      rw [Option.some.inj h]
    · rename_i password hp
      rw [if_neg (not_not.mpr (toBlock_credentialLen hp))] at h
      split at h
      · rename_i hdup
        rw [dif_pos ((any_name_iff hs _).mpr hdup), Option.some.inj h]
      · cases h

/-- A round stores a user with nothing wrong. -/
theorem addUser_eq_ok {before : List UserCredentials} {users : Users} {c : UserCredentials}
    (hs : List.Forall₂ StoredUser.Stores before users.val) (h : offence before c = none) :
    ∃ users' : Users, addUser users before.length c = .ok users' ∧
      List.Forall₂ StoredUser.Stores (before ++ [c]) users'.val := by
  unfold addUser
  split
  · rename_i hu
    rw [offence, if_pos (toBlock_eq_none_iff.mp hu)] at h
    cases h
  · rename_i username hu
    rw [offence, if_neg (not_not.mpr (toBlock_credentialLen hu))] at h
    split
    · rename_i hp
      rw [if_pos (toBlock_eq_none_iff.mp hp)] at h
      cases h
    · rename_i password hp
      rw [if_neg (not_not.mpr (toBlock_credentialLen hp))] at h
      split at h
      · cases h
      · rename_i hdup
        rw [dif_neg (mt (any_name_iff hs _).mp hdup)]
        exact ⟨_, rfl, List.rel_append hs (.cons ⟨rfl, hp⟩ .nil)⟩

/-- The loop stores every user, or stops at the first one with something wrong. -/
theorem addUsers_spec (rest : List UserCredentials) : ∀ {before : List UserCredentials}
    {users : Users}, Configurable before → List.Forall₂ StoredUser.Stores before users.val →
    (∀ users', addUsers users before.length rest = .ok users' →
      Configurable (before ++ rest) ∧
        List.Forall₂ StoredUser.Stores (before ++ rest) users'.val) ∧
    ∀ e, addUsers users before.length rest = .error e ↔
      ∃ mid c after, rest = mid ++ c :: after ∧ Configurable (before ++ mid) ∧
        offence (before ++ mid) c = some e := by
  induction rest with
  | nil =>
    intro before users hb hs
    refine ⟨?_, ?_⟩
    · intro users' h
      cases h
      rw [List.append_nil]
      exact ⟨hb, hs⟩
    · intro e
      simp [addUsers]
  | cons c rest ih =>
    intro before users hb hs
    cases hoff : offence before c with
    | some e₀ =>
      have hstep := addUser_eq_error hs hoff
      refine ⟨?_, ?_⟩
      · intro users' h
        rw [addUsers, hstep] at h
        cases h
      · intro e
        rw [addUsers, hstep]
        constructor
        · intro h
          cases h
          exact ⟨[], c, rest, rfl, by simpa using hb, by simpa using hoff⟩
        · rintro ⟨mid, d, after, hsplit, hmid, hd⟩
          cases mid with
          | nil =>
            cases hsplit
            rw [List.append_nil, hoff] at hd
            rw [Option.some.inj hd]
          | cons d' mid =>
            -- the users in front of a later offence include `c`
            obtain ⟨rfl, rfl⟩ := List.cons.inj hsplit
            rw [List.append_cons] at hmid
            rw [(offence_eq_none_iff hb).mpr hmid.prefix] at hoff
            cases hoff
    | none =>
      obtain ⟨users₁, hadd, hs₁⟩ := addUser_eq_ok hs hoff
      have hb₁ := (offence_eq_none_iff hb).mp hoff
      have hlen : before.length + 1 = (before ++ [c]).length := by simp
      obtain ⟨hok, herr⟩ := ih hb₁ hs₁
      rw [addUsers, hadd, hlen]
      refine ⟨?_, ?_⟩
      · intro users' h
        rw [List.append_cons]
        exact hok users' h
      · intro e
        rw [herr e]
        constructor
        · rintro ⟨mid, d, after, rfl, hmid, hd⟩
          exact ⟨c :: mid, d, after, rfl, by simpa using hmid, by simpa using hd⟩
        · rintro ⟨mid, d, after, hsplit, hmid, hd⟩
          cases mid with
          | nil =>
            cases hsplit
            rw [List.append_nil, hoff] at hd
            cases hd
          | cons d' mid =>
            obtain ⟨rfl, rfl⟩ := List.cons.inj hsplit
            exact ⟨mid, d, after, rfl, by simpa using hmid, by simpa using hd⟩

/-- The empty table every run of the loop starts from. -/
theorem addUsers_nil_spec (credentials : List UserCredentials) :
    (∀ users', addUsers ⟨[], by simp⟩ 0 credentials = .ok users' →
      Configurable credentials ∧
        List.Forall₂ StoredUser.Stores credentials users'.val) ∧
    ∀ e, addUsers ⟨[], by simp⟩ 0 credentials = .error e ↔
      ∃ before c after, credentials = before ++ c :: after ∧ Configurable before ∧
        offence before c = some e :=
  @addUsers_spec credentials [] ⟨[], by simp⟩ ⟨by simp, by simp⟩ .nil

/-- The error is that of the first user in list order that has one. -/
theorem new_eq_error_iff (credentials : List UserCredentials) (e : CredentialError) :
    new credentials = .error e ↔ credentials = [] ∧ e = .noUsers ∨
      ∃ before c after, credentials = before ++ c :: after ∧ Configurable before ∧
        offence before c = some e := by
  rw [← (addUsers_nil_spec credentials).2 e]
  unfold new
  cases credentials with
  | nil => simp [addUsers, eq_comm]
  | cons c rest =>
    simp only [List.isEmpty_cons, Bool.false_eq_true, if_false, reduceCtorEq, false_and, false_or]
    cases addUsers ⟨[], by simp⟩ 0 (c :: rest) <;> simp

/-- A store holds the configured users, in order. -/
theorem stores_of_new {credentials : List UserCredentials} {store : UserStore}
    (h : new credentials = .ok store) :
    credentials ≠ [] ∧ Configurable credentials ∧
      List.Forall₂ StoredUser.Stores credentials store.users := by
  unfold new at h
  split at h
  · cases h
  · rename_i hne
    split at h
    · rename_i users hadd
      cases h
      exact ⟨by simpa using hne, (addUsers_nil_spec credentials).1 users hadd⟩
    · cases h

/-- A store is built from any users that can be configured together. -/
theorem new_eq_ok_iff (credentials : List UserCredentials) :
    (∃ store, new credentials = .ok store) ↔ credentials ≠ [] ∧ Configurable credentials := by
  constructor
  · rintro ⟨store, h⟩
    obtain ⟨hne, hconf, -⟩ := stores_of_new h
    exact ⟨hne, hconf⟩
  · rintro ⟨hne, hconf⟩
    cases hnew : new credentials with
    | ok store => exact ⟨store, rfl⟩
    | error e =>
      obtain ⟨hnil, -⟩ | ⟨before, c, after, rfl, hb, hoff⟩ :=
        (new_eq_error_iff credentials e).mp hnew
      · exact absurd hnil hne
      · rw [List.append_cons] at hconf
        rw [(offence_eq_none_iff hb).mpr hconf.prefix] at hoff
        cases hoff

/-! ## Checking a pair -/

/-- A loop that keeps the last match. -/
theorem foldl_keep_last {α β : Type*} (p : α → Prop) [DecidablePred p] (f : α → β) (l : List α)
    (init : Option β) :
    l.foldl (fun matched x => if p x then some (f x) else matched) init
      = ((l.filter (p ·)).getLast?.map f).or init := by
  induction l using List.reverseRecOn with
  | nil => simp
  | append_singleton l x ih =>
    rw [List.foldl_append, List.foldl_cons, List.foldl_nil, ih, List.filter_append]
    by_cases hx : p x <;> simp [hx]

theorem matches_iff {c : UserCredentials} {user : StoredUser} (h : StoredUser.Stores c user)
    (u p : Bytes) :
    (user.username = (toBlock u).getD .zero ∧ user.password = (toBlock p).getD .zero) ↔
      strBytes c.username = u ∧ strBytes c.password = p := by
  rw [getD_toBlock_eq_iff user.username_eq, getD_toBlock_eq_iff h.2, h.1]

theorem exists_of_forall₂ {α β : Type*} {r : α → β → Prop} {l : List α} {m : List β}
    (h : List.Forall₂ r l m) {x : α} (hx : x ∈ l) : ∃ y ∈ m, r x y := by
  induction h with
  | nil => cases hx
  | @cons a b l m hr _ ih =>
    rcases List.mem_cons.mp hx with rfl | hx
    · exact ⟨b, List.mem_cons_self, hr⟩
    · obtain ⟨y, hy, hxy⟩ := ih hx
      exact ⟨y, List.mem_cons_of_mem _ hy, hxy⟩

theorem strBytes_injective {s t : String} (h : strBytes s = strBytes t) : s = t := by
  have hs := fromUtf8_strBytes s
  rw [h, fromUtf8_strBytes t] at hs
  exact (Option.some.inj hs).symm

/-- The pairs a store accepts are the configured ones, each under its own name. -/
theorem verify_eq_some_iff {credentials : List UserCredentials} {store : UserStore}
    (h : new credentials = .ok store) (u p : Bytes) (name : String) :
    store.verify u p = some name ↔ ∃ c ∈ credentials,
      strBytes c.username = u ∧ strBytes c.password = p ∧ c.username = name := by
  obtain ⟨-, -, hstores⟩ := stores_of_new h
  unfold verify
  rw [foldl_keep_last, Option.or_none]
  simp only [Option.map_eq_some_iff]
  constructor
  · rintro ⟨user, hlast, hname⟩
    obtain ⟨hmem, hmatch⟩ := List.mem_filter.mp (List.mem_of_getLast? hlast)
    obtain ⟨c, hc, hstores⟩ := exists_of_forall₂ hstores.flip hmem
    obtain ⟨hu, hp⟩ := (matches_iff hstores u p).mp (of_decide_eq_true hmatch)
    exact ⟨c, hc, hu, hp, hstores.1.symm.trans hname⟩
  · rintro ⟨c, hc, hu, hp, rfl⟩
    obtain ⟨user, huser, hstores'⟩ := exists_of_forall₂ hstores hc
    have hmem : user ∈ store.users.filter fun user => decide
        (user.username = (toBlock u).getD .zero ∧ user.password = (toBlock p).getD .zero) :=
      List.mem_filter.mpr ⟨huser, decide_eq_true ((matches_iff hstores' u p).mpr ⟨hu, hp⟩)⟩
    obtain ⟨last, hlast⟩ := Option.ne_none_iff_exists'.mp
      (mt List.getLast?_eq_none_iff.mp (List.ne_nil_of_mem hmem))
    refine ⟨last, hlast, ?_⟩
    -- another match has the same name block, hence the same name
    obtain ⟨-, hmatch⟩ := List.mem_filter.mp (List.mem_of_getLast? hlast)
    have hblock := (of_decide_eq_true hmatch).1
    rw [getD_toBlock_eq_iff last.username_eq] at hblock
    exact strBytes_injective (hblock.trans hu.symm)

end UserStore

/--
The store is built exactly from a non-empty list of users of distinct names whose values all
fit a block, any other list is refused at its first bad user, and a pair is accepted exactly
when it is configured. No slice index of `to_block` is out of bounds.
-/
theorem user_store_exact (credentials : List UserCredentials) :
    ((∃ store, UserStore.new credentials = .ok store) ↔ credentials ≠ [] ∧
      (∀ c ∈ credentials,
        (1 ≤ (strBytes c.username).length ∧ (strBytes c.username).length ≤ 255) ∧
        (1 ≤ (strBytes c.password).length ∧ (strBytes c.password).length ≤ 255)) ∧
      (credentials.map (·.username)).Nodup) ∧
    (∀ e, UserStore.new credentials = .error e ↔ credentials = [] ∧ e = .noUsers ∨
      ∃ before c after, credentials = before ++ c :: after ∧ Configurable before ∧
        offence before c = some e) ∧
    (∀ store, UserStore.new credentials = .ok store → ∀ u p : Bytes,
      (∀ name, store.verify u p = some name ↔ ∃ c ∈ credentials,
        strBytes c.username = u ∧ strBytes c.password = p ∧ c.username = name) ∧
      (store.verify u p = none ↔ ¬∃ c ∈ credentials,
        strBytes c.username = u ∧ strBytes c.password = p)) ∧
    ∀ value, toBlockIndexed value = some ((toBlock value).map Block.bytes) := by
  refine ⟨UserStore.new_eq_ok_iff credentials, UserStore.new_eq_error_iff credentials, ?_,
    toBlockIndexed_eq⟩
  intro store hstore u p
  have hsome := UserStore.verify_eq_some_iff hstore u p
  refine ⟨hsome, ?_⟩
  rw [Option.eq_none_iff_forall_ne_some]
  constructor
  · rintro hnone ⟨c, hc, hu, hp⟩
    exact hnone c.username ((hsome c.username).mpr ⟨c, hc, hu, hp, rfl⟩)
  · intro hnot name hname
    obtain ⟨c, hc, hu, hp, -⟩ := (hsome name).mp hname
    exact hnot ⟨c, hc, hu, hp⟩

/-- A padded name is another name: no user answers to `a` followed by a zero byte. -/
example : UserStore.oneUser.verify [97, 0] [98] = none := by decide +kernel

end SocksServer
