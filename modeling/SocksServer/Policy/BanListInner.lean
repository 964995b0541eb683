import SocksServer.Infra.Table
import SocksServer.Policy.IpClass

/-!
# `policy/ban_list_inner.rs`, `policy/ban_list.rs`, `policy/ban_config.rs`

Ban bookkeeping. Time is passed in: `BanList` reads `Instant::now()` and then takes the lock,
so every call here carries the stamp it was made with, and stamps need not be monotone.

Instants and durations are nanoseconds. Subtraction on `Nat` is `saturating_duration_since`.
-/

namespace SocksServer

open Infra

/-- `Duration::from_secs` -/
def durationFromSecs (n : Nat) : Nat := n * 1000000000

/-- `max_failures` failed authentications within `window` ban the client for `duration`. -/
structure BanConfig where
  /-- 0 disables banning. -/
  maxFailures : UInt32
  window : Nat
  duration : Nat
  /-- Upper bound of tracked addresses. -/
  maxTracked : Nat
  deriving DecidableEq, Repr

/-- Outcome of recording a failed authentication. -/
inductive FailureVerdict where
  | disabled
  | counted (failures : Nat)
  | banned
  | untracked
  deriving DecidableEq, Repr

structure BanListStats where
  tracked : Nat
  banned : Nat
  deriving DecidableEq, Repr

/-- While the table is full, a full purge runs at most this often. -/
def fullTablePurgeInterval : Nat := durationFromSecs 1

structure BanEntry where
  /-- Failure moments inside the window, oldest first. -/
  failures : List Nat := []
  bannedAt : Option Nat := none
  deriving DecidableEq, Repr

structure BanListInner where
  config : BanConfig
  entries : Table IpAddr BanEntry
  lastFullPurge : Option Nat

/-- IPv6 clients are tracked per /64: one host usually controls a whole /64. -/
def banKey (ip : IpAddr) : IpAddr :=
  match canonicalIp ip with
  | .v6 v6 => .v6 ⟨v6.bits &&& (BitVec.allOnes 128 <<< 64)⟩
  | .v4 v4 => .v4 v4

namespace BanConfig

/-- A failure at `at_` still counts at `now`. -/
def recent (config : BanConfig) (now at_ : Nat) : Bool := now - at_ < config.window

end BanConfig

namespace BanEntry

def banActive (config : BanConfig) (entry : BanEntry) (now : Nat) : Bool :=
  match entry.bannedAt with
  | some at_ => now - at_ < config.duration
  | none => false

/-- What `purge` keeps. -/
def live (config : BanConfig) (now : Nat) (entry : BanEntry) : Bool :=
  entry.banActive config now || entry.failures.any (config.recent now)

/-- The part of `record_failure` behind the ban check: prune, push, maybe ban. -/
def addFailure (config : BanConfig) (entry : BanEntry) (now : Nat) :
    FailureVerdict × BanEntry :=
  let failures := entry.failures.filter (config.recent now) ++ [now]
  if failures.length ≥ config.maxFailures.toNat then
    (.banned, { failures := [], bannedAt := some now })
  else (.counted failures.length, { failures, bannedAt := none })

end BanEntry

namespace BanListInner

def new (config : BanConfig) : BanListInner := ⟨config, ∅, none⟩

def isBanned (bans : BanListInner) (ip : IpAddr) (now : Nat) : Bool :=
  match bans.entries.lookup (banKey ip) with
  | some entry => entry.banActive bans.config now
  | none => false

/-- Forgets expired bans and stale failure counters; returns how many were dropped. -/
def purge (bans : BanListInner) (now : Nat) : Nat × BanListInner :=
  let before := bans.entries.size
  let entries := Table.retain (BanEntry.live bans.config now) bans.entries
  (before - entries.size, { bans with entries })

def stats (bans : BanListInner) (now : Nat) : BanListStats :=
  { tracked := bans.entries.size
    banned := (bans.entries.values.filter fun entry => entry.banActive bans.config now).length }

def purgeDue (bans : BanListInner) (now : Nat) : Bool :=
  match bans.lastFullPurge with
  | none => true
  | some at_ => now - at_ ≥ fullTablePurgeInterval

/-- Whether a new address may be tracked; purges (rate limited) when the table is full. -/
def makeRoom (bans : BanListInner) (now : Nat) : Bool × BanListInner :=
  if bans.entries.size < bans.config.maxTracked then (true, bans)
  else
    let bans :=
      if bans.purgeDue now then ({ bans with lastFullPurge := some now }.purge now).2 else bans
    (bans.entries.size < bans.config.maxTracked, bans)

/-- The entry of a key, as `entry(key).or_default()` gives it. -/
def entryOf (bans : BanListInner) (key : IpAddr) : BanEntry :=
  (bans.entries.lookup key).getD {}

def recordFailure (bans : BanListInner) (ip : IpAddr) (now : Nat) :
    FailureVerdict × BanListInner :=
  if bans.config.maxFailures = 0 then (.disabled, bans)
  else
    let key := banKey ip
    let (room, bans) :=
      if (bans.entries.lookup key).isSome then (true, bans) else bans.makeRoom now
    if !room then (.untracked, bans)
    else
      let entry := bans.entryOf key
      if entry.banActive bans.config now then (.banned, bans)
      else
        let (verdict, entry) := entry.addFailure bans.config now
        (verdict, { bans with entries := bans.entries.insert key entry })

/-! ## What each operation does to the entry of a key

`entryOf` gives the default entry for an absent key. A purge can only turn an entry that is
no longer live into the default one, and the other keys are not touched by a failure.
-/

@[simp] theorem entryOf_new (config : BanConfig) (key : IpAddr) :
    (new config).entryOf key = {} := rfl

theorem entryOf_purge (bans : BanListInner) (now : Nat) (key : IpAddr) :
    (bans.purge now).2.entryOf key =
      if (bans.entryOf key).live bans.config now then bans.entryOf key else {} := by
  unfold entryOf purge
  simp only [Table.lookup_retain]
  cases bans.entries.lookup key with
  | none => simp [Option.filter]
  | some entry =>
    simp only [Option.filter, Option.getD_some]
    split <;> simp_all

theorem entryOf_insert (bans : BanListInner) (key key' : IpAddr) (entry : BanEntry) :
    entryOf { bans with entries := bans.entries.insert key entry } key' =
      if key' = key then entry else bans.entryOf key' := by
  unfold entryOf
  by_cases h : key' = key
  · subst h; simp
  · rw [if_neg h, AList.lookup_insert_ne h]

/-- The entries are those of `bans`, or what a purge at `now` leaves of them. -/
def MaybePurged (bans : BanListInner) (now : Nat) (mid : BanListInner) : Prop :=
  mid.entries = bans.entries ∨ mid.entries = (bans.purge now).2.entries

theorem MaybePurged.entryOf_cases {bans mid : BanListInner} {now : Nat}
    (h : MaybePurged bans now mid) (key : IpAddr) :
    mid.entryOf key = bans.entryOf key ∨
      (mid.entryOf key = {} ∧ (bans.entryOf key).live bans.config now = false) := by
  rcases h with he | he
  · exact Or.inl (by simp only [entryOf, he])
  · have hp : mid.entryOf key = (bans.purge now).2.entryOf key := by simp only [entryOf, he]
    rw [hp, entryOf_purge]
    split
    · exact Or.inl rfl
    · next hl => exact Or.inr ⟨rfl, by simpa using hl⟩

@[simp] theorem config_purge (bans : BanListInner) (now : Nat) :
    (bans.purge now).2.config = bans.config := rfl

/-- `make_room` is a purge or nothing, as far as the entries are concerned. -/
theorem makeRoom_cases (bans : BanListInner) (now : Nat) :
    (bans.makeRoom now).2.config = bans.config ∧ MaybePurged bans now (bans.makeRoom now).2 := by
  unfold makeRoom
  split
  · exact ⟨rfl, Or.inl rfl⟩
  · simp only []
    split
    · exact ⟨rfl, Or.inr rfl⟩
    · exact ⟨rfl, Or.inl rfl⟩

/-- A full purge: the whole table is purged and the moment kept. -/
def fullPurge (bans : BanListInner) (now : Nat) : BanListInner :=
  ({ bans with lastFullPurge := some now }.purge now).2

/-- **What `make_room` can do**, with its guards. -/
theorem makeRoom_eq (bans : BanListInner) (now : Nat) :
    (bans.entries.size < bans.config.maxTracked ∧ bans.makeRoom now = (true, bans)) ∨
    (bans.config.maxTracked ≤ bans.entries.size ∧ bans.purgeDue now = false ∧
      bans.makeRoom now = (false, bans)) ∨
    (bans.config.maxTracked ≤ bans.entries.size ∧ bans.purgeDue now = true ∧
      bans.makeRoom now =
        (decide ((bans.fullPurge now).entries.size < bans.config.maxTracked),
          bans.fullPurge now)) := by
  unfold makeRoom
  by_cases hsize : bans.entries.size < bans.config.maxTracked
  · exact Or.inl ⟨hsize, if_pos hsize⟩
  · rw [if_neg hsize]
    cases hdue : bans.purgeDue now with
    | false => exact Or.inr (Or.inl ⟨Nat.le_of_not_lt hsize, rfl, by simp [hsize]⟩)
    | true => exact Or.inr (Or.inr ⟨Nat.le_of_not_lt hsize, rfl, rfl⟩)

/-- The default entry is not banned. -/
theorem banActive_default (config : BanConfig) (now : Nat) :
    BanEntry.banActive config {} now = false := rfl

/--
**What `record_failure` can do**, with its guards.

A tracked address needs no room. An address without an entry gets the default one, in the
table `make_room` leaves, or no entry when that table is still full.
-/
theorem recordFailure_room {bans bans' : BanListInner} {ip : IpAddr} {now : Nat}
    {verdict : FailureVerdict} (h : bans.recordFailure ip now = (verdict, bans')) :
    (bans.config.maxFailures = 0 ∧ verdict = .disabled ∧ bans' = bans) ∨
    (bans.config.maxFailures ≠ 0 ∧ ∃ entry, bans.entries.lookup (banKey ip) = some entry ∧
      ((entry.banActive bans.config now = true ∧ verdict = .banned ∧ bans' = bans) ∨
      (entry.banActive bans.config now = false ∧
        verdict = (entry.addFailure bans.config now).1 ∧
        bans' = { bans with
          entries := bans.entries.insert (banKey ip) (entry.addFailure bans.config now).2 }))) ∨
    (bans.config.maxFailures ≠ 0 ∧ bans.entries.lookup (banKey ip) = none ∧
      ((bans.makeRoom now).1 = false ∧ verdict = .untracked ∧ bans' = (bans.makeRoom now).2 ∨
      (bans.makeRoom now).1 = true ∧
        verdict = (BanEntry.addFailure bans.config {} now).1 ∧
        bans' = { (bans.makeRoom now).2 with
          entries := (bans.makeRoom now).2.entries.insert (banKey ip)
            (BanEntry.addFailure bans.config {} now).2 })) := by
  unfold recordFailure at h
  by_cases h0 : bans.config.maxFailures = 0
  · rw [if_pos h0] at h
    exact Or.inl ⟨h0, (Prod.mk.inj h).1.symm, (Prod.mk.inj h).2.symm⟩
  rw [if_neg h0] at h
  refine Or.inr ?_
  cases hl : bans.entries.lookup (banKey ip) with
  | some entry =>
    refine Or.inl ⟨h0, entry, rfl, ?_⟩
    have hself : bans.entryOf (banKey ip) = entry := by simp [entryOf, hl]
    simp only [hl, Option.isSome_some, if_true, Bool.not_true, Bool.false_eq_true, if_false,
      hself] at h
    split at h
    · next hb => exact Or.inl ⟨hb, (Prod.mk.inj h).1.symm, (Prod.mk.inj h).2.symm⟩
    · next hb => exact Or.inr ⟨by simpa using hb, (Prod.mk.inj h).1.symm, (Prod.mk.inj h).2.symm⟩
  | none =>
    refine Or.inr ⟨h0, rfl, ?_⟩
    obtain ⟨hcfg, hent⟩ := makeRoom_cases bans now
    have hmid : (bans.makeRoom now).2.entryOf (banKey ip) = {} := by
      rcases hent.entryOf_cases (banKey ip) with he | ⟨he, _⟩
      · rw [he, entryOf, hl, Option.getD_none]
      · exact he
    simp only [hl, Option.isSome_none, Bool.false_eq_true, if_false, hmid, hcfg,
      banActive_default] at h
    cases hroom : (bans.makeRoom now).1 with
    | false =>
      rw [hroom] at h
      exact Or.inl ⟨rfl, (Prod.mk.inj h).1.symm, (Prod.mk.inj h).2.symm⟩
    | true =>
      rw [hroom] at h
      refine Or.inr ⟨rfl, (Prod.mk.inj h).1.symm, ?_⟩
      rw [← (Prod.mk.inj h).2]
      simp only [hcfg]

/--
What `record_failure` can do to the entries.

The table it works on, `mid`, has the same entries or is purged, and purged only when the
key has no entry.
-/
theorem recordFailure_cases {bans bans' : BanListInner} {ip : IpAddr} {now : Nat}
    {verdict : FailureVerdict} (h : bans.recordFailure ip now = (verdict, bans')) :
    (bans.config.maxFailures = 0 ∧ verdict = .disabled ∧ bans' = bans) ∨
    (bans.config.maxFailures ≠ 0 ∧ ∃ mid : BanListInner, mid.config = bans.config ∧
      MaybePurged bans now mid ∧
      mid.entryOf (banKey ip) = bans.entryOf (banKey ip) ∧
      ((bans.entries.lookup (banKey ip) = none ∧ verdict = .untracked ∧ bans' = mid) ∨
      ((bans.entryOf (banKey ip)).banActive bans.config now = true ∧
        verdict = .banned ∧ bans' = mid) ∨
      ((bans.entryOf (banKey ip)).banActive bans.config now = false ∧
        verdict = ((bans.entryOf (banKey ip)).addFailure bans.config now).1 ∧
        bans' = { mid with
          entries := mid.entries.insert (banKey ip)
            ((bans.entryOf (banKey ip)).addFailure bans.config now).2 }))) := by
  rcases recordFailure_room h with hd | ⟨h0, entry, hl, hcase⟩ | ⟨h0, hl, hcase⟩
  · exact Or.inl hd
  · -- a tracked address: the table is the one before
    have hself : bans.entryOf (banKey ip) = entry := by simp [entryOf, hl]
    rw [hself]
    exact Or.inr ⟨h0, bans, rfl, Or.inl rfl, hself, Or.inr hcase⟩
  · have hself : bans.entryOf (banKey ip) = {} := by simp [entryOf, hl]
    obtain ⟨hcfg, hent⟩ := makeRoom_cases bans now
    have hmid : (bans.makeRoom now).2.entryOf (banKey ip) = {} := by
      rcases hent.entryOf_cases (banKey ip) with he | ⟨he, _⟩
      · rw [he, hself]
      · exact he
    rw [hself]
    refine Or.inr ⟨h0, (bans.makeRoom now).2, hcfg, hent, hmid, ?_⟩
    rcases hcase with ⟨_, hv, hb⟩ | ⟨_, hv, hb⟩
    · exact Or.inl ⟨hl, hv, hb⟩
    · exact Or.inr (Or.inr ⟨banActive_default _ _, hv, hb⟩)

@[simp] theorem config_recordFailure (bans : BanListInner) (ip : IpAddr) (now : Nat) :
    (bans.recordFailure ip now).2.config = bans.config := by
  cases hr : bans.recordFailure ip now with
  | mk verdict bans' =>
    rcases recordFailure_cases hr with ⟨_, _, h⟩ | ⟨_, mid, hcfg, _, _, h⟩
    · rw [h]
    · rcases h with ⟨_, _, h⟩ | ⟨_, _, h⟩ | ⟨_, _, h⟩ <;> rw [h] <;> exact hcfg

end BanListInner

end SocksServer
