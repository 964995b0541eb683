import SocksServer.Policy.BanHistory
import Mathlib.Algebra.Order.BigOperators.Group.List

/-!
# What the ban table holds

Clients choose the keys of the table, so its size is bounded whatever they do, and an entry is
never left in the shape `entry(key).or_default()` gives it.

* `TableShape` : the representation invariant, kept by every call with any stamp
* `SeenLive` : an entry was live when the table was purged last, or has been written since

The second one needs stamps that do not go back. It says that a client is turned away only by
entries that were in use within the last second.
-/

namespace SocksServer

open Infra

/-! ## Keys -/

/-- An IPv4 address, or an IPv6 address with a zero lower half. -/
def IsBanKey : IpAddr → Prop
  | .v4 _ => True
  | .v6 ip => ip.bits.extractLsb' 0 64 = 0#64

theorem toIpv4Mapped_of_isBanKey {ip : Ipv6Addr} (h : IsBanKey (.v6 ip)) :
    ip.toIpv4Mapped = none := by
  unfold Ipv6Addr.toIpv4Mapped
  refine if_neg ?_
  intro hmapped
  -- bit 32 is the lowest bit of the `ffff` group
  have hlow := congrArg (·.getLsbD 32) h
  have hbit := congrArg (·.getLsbD 0) hmapped
  simp at hlow hbit
  rw [hlow] at hbit
  cases hbit

theorem and_highMask_eq_self_iff (bits : BitVec 128) :
    bits &&& (BitVec.allOnes 128 <<< 64) = bits ↔ bits.extractLsb' 0 64 = 0#64 := by
  constructor
  · intro h
    rw [← h]
    apply BitVec.eq_of_getLsbD_eq
    intro i hi
    simp only [BitVec.getLsbD_extractLsb', BitVec.getLsbD_and, BitVec.getLsbD_shiftLeft]
    simp [hi]
  · intro h
    apply BitVec.eq_of_getLsbD_eq
    intro i hi
    simp only [BitVec.getLsbD_and, BitVec.getLsbD_shiftLeft, BitVec.getLsbD_allOnes]
    by_cases hlow : i < 64
    · have hbit := congrArg (·.getLsbD i) h
      simp [hlow] at hbit
      simp [hbit]
    · simp [hlow, hi, show i - 64 < 128 by omega]

/-- The keys are the addresses `ban_key` leaves alone. -/
theorem banKey_eq_self_iff (key : IpAddr) : banKey key = key ↔ IsBanKey key := by
  cases key with
  | v4 ip => exact iff_of_true rfl trivial
  | v6 ip =>
    constructor
    · intro h
      unfold banKey at h
      split at h
      · next v6 _ =>
        rw [← h]
        show (v6.bits &&& _).extractLsb' 0 64 = 0#64
        rw [← and_highMask_eq_self_iff, BitVec.and_assoc, BitVec.and_self]
      · cases h
    · intro h
      have hmask := (and_highMask_eq_self_iff ip.bits).mpr h
      unfold banKey
      rw [canonicalIp_v6, toIpv4Mapped_of_isBanKey h]
      show IpAddr.v6 ⟨ip.bits &&& _⟩ = .v6 ip
      rw [hmask]

theorem isBanKey_banKey (ip : IpAddr) : IsBanKey (banKey ip) := by
  unfold banKey
  split
  · next v6 _ =>
    show (v6.bits &&& _).extractLsb' 0 64 = 0#64
    rw [← and_highMask_eq_self_iff, BitVec.and_assoc, BitVec.and_self]
  · trivial

/-! ## Shape -/

/-- Banned with nothing counted, or counted but below the limit. -/
def BanEntry.WellShaped (config : BanConfig) (entry : BanEntry) : Prop :=
  ((∃ at_, entry.bannedAt = some at_) ∧ entry.failures = []) ∨
    (entry.bannedAt = none ∧ 1 ≤ entry.failures.length ∧
      entry.failures.length ≤ config.maxFailures.toNat - 1)

/-- Whatever the entry was, a failure leaves it in shape. -/
theorem wellShaped_addFailure (config : BanConfig) (entry : BanEntry) (now : Nat) :
    (entry.addFailure config now).2.WellShaped config := by
  unfold BanEntry.addFailure
  dsimp only
  split
  · exact Or.inl ⟨⟨now, rfl⟩, rfl⟩
  · next hlt =>
    refine Or.inr ⟨rfl, ?_, ?_⟩
    · rw [List.length_append, List.length_singleton]
      omega
    · show (entry.failures.filter (config.recent now) ++ [now]).length ≤ _
      omega

/-- The representation invariant of the table. -/
structure TableShape (config : BanConfig) (bans : BanListInner) : Prop where
  config_eq : bans.config = config
  size_le : bans.entries.size ≤ config.maxTracked
  key : ∀ {key entry}, bans.entries.lookup key = some entry → IsBanKey key
  shape : ∀ {key entry}, bans.entries.lookup key = some entry → entry.WellShaped config
  disabled : config.maxFailures = 0 → bans.entries = ∅

namespace TableShape

variable {config : BanConfig} {bans : BanListInner} {now : Nat}

theorem new (config : BanConfig) : TableShape config (.new config) where
  config_eq := rfl
  size_le := Nat.zero_le _
  key := fun h => by cases h
  shape := fun h => by cases h
  disabled := fun _ => rfl

/-- Fewer failures than `max_failures` are stored. -/
theorem length_failures_le (h : TableShape config bans) (key : IpAddr) :
    (bans.entryOf key).failures.length ≤ config.maxFailures.toNat - 1 := by
  unfold BanListInner.entryOf
  cases hl : bans.entries.lookup key with
  | none => exact Nat.zero_le _
  | some entry =>
    rcases h.shape hl with ⟨-, hempty⟩ | ⟨-, -, hle⟩
    · show entry.failures.length ≤ _
      rw [hempty]
      exact Nat.zero_le _
    · exact hle

/-- Dropping entries keeps the shape. -/
theorem purge (h : TableShape config bans) (now : Nat) :
    TableShape config (bans.purge now).2 where
  config_eq := h.config_eq
  size_le := (Table.size_retain_le _ _).trans h.size_le
  key := fun hl => h.key (Table.mem_lookup_retain.mp hl).1
  shape := fun hl => h.shape (Table.mem_lookup_retain.mp hl).1
  disabled := fun h0 => by
    show Table.retain _ bans.entries = ∅
    rw [h.disabled h0]
    rfl

theorem fullPurge (h : TableShape config bans) (now : Nat) :
    TableShape config (bans.fullPurge now) :=
  have hstamped : TableShape config { bans with lastFullPurge := some now } :=
    ⟨h.config_eq, h.size_le, h.key, h.shape, h.disabled⟩
  hstamped.purge now

theorem makeRoom (h : TableShape config bans) (now : Nat) :
    TableShape config (bans.makeRoom now).2 := by
  rcases bans.makeRoom_eq now with ⟨-, he⟩ | ⟨-, -, he⟩ | ⟨-, -, he⟩
  · rw [he]
    exact h
  · rw [he]
    exact h
  · rw [he]
    exact h.fullPurge now

/-- An entry written by a failure, in a table with room for it or with the key in it. -/
theorem insert (h : TableShape config bans) (h0 : config.maxFailures ≠ 0) (ip : IpAddr)
    (entry : BanEntry) (now : Nat)
    (hroom : banKey ip ∈ bans.entries ∨ bans.entries.size < config.maxTracked) :
    TableShape config { bans with
      entries := bans.entries.insert (banKey ip) (entry.addFailure bans.config now).2 } where
  config_eq := h.config_eq
  size_le := by
    by_cases hmem : banKey ip ∈ bans.entries
    · rw [Table.size_insert_of_mem _ hmem]
      exact h.size_le
    · rw [Table.size_insert_of_not_mem _ hmem]
      exact hroom.resolve_left hmem
  key := fun {key found} hl => by
    by_cases hk : key = banKey ip
    · rw [hk]
      exact isBanKey_banKey ip
    · rw [AList.lookup_insert_ne hk] at hl
      exact h.key hl
  shape := fun {key found} hl => by
    by_cases hk : key = banKey ip
    · rw [hk, AList.lookup_insert] at hl
      rw [← Option.some.inj hl, h.config_eq]
      exact wellShaped_addFailure config entry now
    · rw [AList.lookup_insert_ne hk] at hl
      exact h.shape hl
  disabled := fun h0' => absurd h0' h0

theorem recordFailure (h : TableShape config bans) (ip : IpAddr) (now : Nat) :
    TableShape config (bans.recordFailure ip now).2 := by
  cases hr : bans.recordFailure ip now with
  | mk verdict bans' =>
    show TableShape config bans'
    rcases BanListInner.recordFailure_room hr with
      ⟨-, -, rfl⟩ | ⟨h0, entry, hl, ⟨-, -, rfl⟩ | ⟨-, -, rfl⟩⟩ |
      ⟨h0, hl, ⟨-, -, rfl⟩ | ⟨hroom, -, rfl⟩⟩
    · exact h
    · exact h
    · have hmem : banKey ip ∈ bans.entries := AList.lookup_isSome.mp (by rw [hl]; rfl)
      exact h.insert (h.config_eq ▸ h0) ip entry now (Or.inl hmem)
    · exact h.makeRoom now
    · rw [← (BanListInner.makeRoom_cases bans now).1]
      refine (h.makeRoom now).insert (h.config_eq ▸ h0) ip {} now (Or.inr ?_)
      -- the answer of `make_room` is about the table it leaves
      rcases bans.makeRoom_eq now with ⟨hsize, he⟩ | ⟨-, -, he⟩ | ⟨-, -, he⟩
      · rw [he]
        exact h.config_eq ▸ hsize
      · rw [he] at hroom
        cases hroom
      · rw [he] at hroom ⊢
        exact h.config_eq ▸ of_decide_eq_true hroom

theorem exec (h : TableShape config bans) (call : BanCall) (now : Nat) :
    TableShape config (bans.exec call now).2 := by
  cases call with
  | recordFailure ip => exact h.recordFailure ip now
  | isBanned ip => exact h
  | purge => exact h.purge now
  | stats => exact h

/-- Every entry stores at most `max_failures - 1` moments. -/
theorem stored_le (h : TableShape config bans) :
    (bans.entries.values.map fun entry => entry.failures.length).sum ≤
      config.maxTracked * (config.maxFailures.toNat - 1) := by
  have hall : ∀ n ∈ bans.entries.values.map fun entry => entry.failures.length,
      n ≤ config.maxFailures.toNat - 1 := by
    intro n hn
    obtain ⟨entry, hmem, rfl⟩ := List.mem_map.mp hn
    obtain ⟨key, hl⟩ := Table.exists_lookup_of_mem_values hmem
    rcases h.shape hl with ⟨-, hnil⟩ | ⟨-, -, hle⟩
    · rw [hnil]
      exact Nat.zero_le _
    · exact hle
  calc (bans.entries.values.map fun entry => entry.failures.length).sum
      ≤ (bans.entries.values.map fun entry => entry.failures.length).length •
          (config.maxFailures.toNat - 1) := List.sum_le_card_nsmul _ _ hall
    _ = bans.entries.size * (config.maxFailures.toNat - 1) := by
        rw [List.length_map, Table.values, List.length_map]
        rfl
    _ ≤ config.maxTracked * (config.maxFailures.toNat - 1) :=
        Nat.mul_le_mul_right _ h.size_le

theorem stats_le (h : TableShape config bans) (now : Nat) :
    (bans.stats now).banned ≤ (bans.stats now).tracked ∧
      (bans.stats now).tracked ≤ config.maxTracked := by
  refine ⟨?_, h.size_le⟩
  have hfilter := List.length_filter_le (fun entry => entry.banActive bans.config now)
    bans.entries.values
  rwa [Table.values, List.length_map] at hfilter

end TableShape

theorem tableShape_of (config : BanConfig) (calls : List (BanCall × Nat)) :
    TableShape config (BanRun.of config calls).bans := by
  induction calls using List.reverseRecOn with
  | nil => exact TableShape.new config
  | append_singleton calls c ih =>
    rw [BanRun.of_concat]
    exact ih.exec c.1 c.2

/--
**The table is bounded and its entries are in shape** after any calls with any stamps: what a
distributed attack makes it store is at most `max_tracked * (max_failures - 1)` moments.
-/
theorem ban_table_shape (config : BanConfig) (calls : List (BanCall × Nat)) :
    let bans := (BanRun.of config calls).bans
    bans.entries.size ≤ config.maxTracked ∧
    (∀ key entry, bans.entries.lookup key = some entry →
      banKey key = key ∧
      (match key with
        | .v4 _ => True
        | .v6 ip => ip.bits.extractLsb' 0 64 = 0#64) ∧
      (((∃ at_, entry.bannedAt = some at_) ∧ entry.failures = []) ∨
        (entry.bannedAt = none ∧ 1 ≤ entry.failures.length ∧
          entry.failures.length ≤ config.maxFailures.toNat - 1))) ∧
    (bans.entries.values.map fun entry => entry.failures.length).sum ≤
      config.maxTracked * (config.maxFailures.toNat - 1) ∧
    (config.maxFailures = 0 → bans.entries = ∅) ∧
    ∀ now, (bans.stats now).banned ≤ (bans.stats now).tracked ∧
      (bans.stats now).tracked ≤ config.maxTracked := by
  intro bans
  have h : TableShape config bans := tableShape_of config calls
  refine ⟨h.size_le, ?_, h.stored_le, h.disabled, h.stats_le⟩
  intro key entry hl
  have hkey := h.key hl
  refine ⟨(banKey_eq_self_iff key).mpr hkey, ?_, h.shape hl⟩
  cases key with
  | v4 ip => trivial
  | v6 ip => exact hkey

/-! ## Room for new clients -/

/-- At `t`, the ban of the entry runs or one of its failures still counts. -/
def BanEntry.LiveAt (config : BanConfig) (t : Nat) (entry : BanEntry) : Prop :=
  (∃ at_, entry.bannedAt = some at_ ∧ at_ ≤ t ∧ t < at_ + config.duration) ∨
    ∃ at_ ∈ entry.failures, at_ ≤ t ∧ t < at_ + config.window

/-- Nothing in the entry is later than `T`. -/
def BanEntry.StampedBy (T : Nat) (entry : BanEntry) : Prop :=
  (∀ at_, entry.bannedAt = some at_ → at_ ≤ T) ∧ ∀ at_ ∈ entry.failures, at_ ≤ T

namespace BanEntry

variable {config : BanConfig} {entry : BanEntry} {T now : Nat}

theorem StampedBy.mono (h : entry.StampedBy T) (hT : T ≤ now) : entry.StampedBy now :=
  ⟨fun at_ hat => (h.1 at_ hat).trans hT, fun at_ hat => (h.2 at_ hat).trans hT⟩

/-- What a purge keeps is live, and was not stamped in the future. -/
theorem liveAt_of_live (h : entry.live config now = true) (hs : entry.StampedBy now) :
    entry.LiveAt config now := by
  unfold live at h
  rcases Bool.or_eq_true _ _ ▸ h with hban | hfail
  · unfold banActive at hban
    cases hat : entry.bannedAt with
    | none =>
      rw [hat] at hban
      cases hban
    | some at_ =>
      rw [hat] at hban
      have hle := hs.1 at_ hat
      have hlt : now - at_ < config.duration := of_decide_eq_true hban
      exact Or.inl ⟨at_, hat, hle, by omega⟩
  · obtain ⟨at_, hmem, hrecent⟩ := List.any_eq_true.mp hfail
    have hle := hs.2 at_ hmem
    have hlt : now - at_ < config.window := of_decide_eq_true hrecent
    exact Or.inr ⟨at_, hmem, hle, by omega⟩

/-- A failure makes its entry live: it counts itself, or it is the start of a ban. -/
theorem liveAt_addFailure (hw : 0 < config.window) (hd : 0 < config.duration) (entry : BanEntry)
    (now : Nat) : (entry.addFailure config now).2.LiveAt config now := by
  unfold addFailure
  dsimp only
  split
  · exact Or.inl ⟨now, rfl, le_refl now, by omega⟩
  · exact Or.inr ⟨now, by simp, le_refl now, by omega⟩

theorem stampedBy_addFailure (hs : entry.StampedBy now) :
    (entry.addFailure config now).2.StampedBy now := by
  unfold addFailure
  dsimp only
  split
  · exact ⟨fun at_ hat => (Option.some.inj hat).symm.le, by simp⟩
  · refine ⟨by simp, ?_⟩
    intro at_ hmem
    rcases List.mem_append.mp hmem with hmem | hmem
    · exact hs.2 at_ (List.mem_filter.mp hmem).1
    · exact (List.mem_singleton.mp hmem).le

end BanEntry

/--
No stamp of the table is later than `T`, and since the last full purge every entry has been
live, at the purge itself or when it was written.
-/
structure SeenLive (config : BanConfig) (T : Nat) (bans : BanListInner) : Prop where
  config_eq : bans.config = config
  stamped : ∀ {key entry}, bans.entries.lookup key = some entry → entry.StampedBy T
  seen : ∀ {purged key entry}, bans.lastFullPurge = some purged →
    bans.entries.lookup key = some entry → ∃ t, purged ≤ t ∧ t ≤ T ∧ entry.LiveAt config t
  purged_le : ∀ {purged}, bans.lastFullPurge = some purged → purged ≤ T

namespace SeenLive

variable {config : BanConfig} {bans : BanListInner} {T now : Nat}

theorem new (config : BanConfig) (T : Nat) : SeenLive config T (.new config) where
  config_eq := rfl
  stamped := fun h => by cases h
  seen := fun h => by cases h
  purged_le := fun h => by cases h

theorem mono (h : SeenLive config T bans) (hT : T ≤ now) : SeenLive config now bans where
  config_eq := h.config_eq
  stamped := fun hl => (h.stamped hl).mono hT
  seen := fun hp hl => by
    obtain ⟨t, hpt, htT, hlive⟩ := h.seen hp hl
    exact ⟨t, hpt, htT.trans hT, hlive⟩
  purged_le := fun hp => (h.purged_le hp).trans hT

/-- The purge of the background task does not move the moment of the last full purge. -/
theorem purge (h : SeenLive config now bans) : SeenLive config now (bans.purge now).2 where
  config_eq := h.config_eq
  stamped := fun hl => h.stamped (Table.mem_lookup_retain.mp hl).1
  seen := fun hp hl => h.seen hp (Table.mem_lookup_retain.mp hl).1
  purged_le := h.purged_le

/-- What a full purge leaves is live at its moment. -/
theorem fullPurge (h : SeenLive config now bans) : SeenLive config now (bans.fullPurge now) where
  config_eq := h.config_eq
  stamped := fun hl => h.stamped (Table.mem_lookup_retain.mp hl).1
  seen := fun hp hl => by
    obtain ⟨hl, hlive⟩ := Table.mem_lookup_retain.mp hl
    have hlive := BanEntry.liveAt_of_live hlive (h.stamped hl)
    refine ⟨now, (Option.some.inj hp).symm.le, le_refl now, ?_⟩
    rw [← h.config_eq]
    exact hlive
  purged_le := fun hp => (Option.some.inj hp).symm.le

theorem makeRoom (h : SeenLive config now bans) : SeenLive config now (bans.makeRoom now).2 := by
  rcases bans.makeRoom_eq now with ⟨-, he⟩ | ⟨-, -, he⟩ | ⟨-, -, he⟩
  · rw [he]
    exact h
  · rw [he]
    exact h
  · rw [he]
    exact h.fullPurge

/-- A written entry is live when it is written. -/
theorem insert (h : SeenLive config now bans) (hw : 0 < config.window) (hd : 0 < config.duration)
    (key : IpAddr) {entry : BanEntry} (hs : entry.StampedBy now) :
    SeenLive config now { bans with
      entries := bans.entries.insert key (entry.addFailure bans.config now).2 } where
  config_eq := h.config_eq
  stamped := fun {key' found} hl => by
    by_cases hk : key' = key
    · rw [hk, AList.lookup_insert] at hl
      rw [← Option.some.inj hl]
      exact BanEntry.stampedBy_addFailure hs
    · rw [AList.lookup_insert_ne hk] at hl
      exact h.stamped hl
  seen := fun {purged key' found} hp hl => by
    by_cases hk : key' = key
    · rw [hk, AList.lookup_insert] at hl
      rw [← Option.some.inj hl, h.config_eq]
      exact ⟨now, h.purged_le hp, le_refl now, BanEntry.liveAt_addFailure hw hd entry now⟩
    · rw [AList.lookup_insert_ne hk] at hl
      exact h.seen hp hl
  purged_le := h.purged_le

theorem recordFailure (h : SeenLive config now bans) (hw : 0 < config.window)
    (hd : 0 < config.duration) (ip : IpAddr) :
    SeenLive config now (bans.recordFailure ip now).2 := by
  cases hr : bans.recordFailure ip now with
  | mk verdict bans' =>
    show SeenLive config now bans'
    rcases BanListInner.recordFailure_room hr with
      ⟨-, -, rfl⟩ | ⟨-, entry, hl, ⟨-, -, rfl⟩ | ⟨-, -, rfl⟩⟩ |
      ⟨-, -, ⟨-, -, rfl⟩ | ⟨-, -, rfl⟩⟩
    · exact h
    · exact h
    · exact h.insert hw hd (banKey ip) (h.stamped hl)
    · exact h.makeRoom
    · rw [← (BanListInner.makeRoom_cases bans now).1]
      exact h.makeRoom.insert hw hd (banKey ip) ⟨by simp, by simp⟩

theorem exec (h : SeenLive config T bans) (hw : 0 < config.window) (hd : 0 < config.duration)
    (hT : T ≤ now) (call : BanCall) : SeenLive config now (bans.exec call now).2 := by
  have h := h.mono hT
  cases call with
  | recordFailure ip => exact h.recordFailure hw hd ip
  | isBanned ip => exact h
  | purge => exact h.purge
  | stats => exact h

end SeenLive

theorem seenLive_of {config : BanConfig} (hw : 0 < config.window) (hd : 0 < config.duration)
    (calls : List (BanCall × Nat)) (hmono : (calls.map Prod.snd).Pairwise (· ≤ ·)) :
    SeenLive config (lastStamp calls) (BanRun.of config calls).bans := by
  induction calls using List.reverseRecOn with
  | nil => exact SeenLive.new config _
  | append_singleton calls c ih =>
    rw [List.map_append] at hmono
    have hstamp : lastStamp (calls ++ [c]) = c.2 := by simp [lastStamp]
    rw [hstamp, BanRun.of_concat]
    exact (ih (List.pairwise_append.mp hmono).1).exec hw hd (lastStamp_le hmono) c.1

/-- A full table is left as it is: whatever was purged would have made room. -/
theorem makeRoom_eq_of_full {config : BanConfig} {bans : BanListInner} {now : Nat}
    (hshape : TableShape config bans) (h : (bans.makeRoom now).1 = false) :
    bans.entries.size = config.maxTracked ∧ (bans.makeRoom now).2.entries = bans.entries ∧
      ((bans.purgeDue now = false ∧ (bans.makeRoom now).2 = bans) ∨
        (bans.makeRoom now).2.lastFullPurge = some now) := by
  have hle := hshape.size_le
  rcases bans.makeRoom_eq now with ⟨-, he⟩ | ⟨hfull, hdue, he⟩ | ⟨hfull, -, he⟩
  · rw [he] at h
    cases h
  · rw [hshape.config_eq] at hfull
    rw [he]
    exact ⟨le_antisymm hle hfull, rfl, Or.inl ⟨hdue, rfl⟩⟩
  · rw [he] at h ⊢
    rw [hshape.config_eq] at hfull h
    have hleft : config.maxTracked ≤ (bans.fullPurge now).entries.size := by
      simpa using h
    refine ⟨le_antisymm hle hfull, ?_, Or.inr rfl⟩
    exact Table.retain_eq_self (hle.trans hleft)

/--
**A client is turned away only by entries in use.**

When a failure is not tracked, the key has no entry, the table is full, and each of its entries
was live within the last second; the entries stay as they are. A tracked address is never
turned away.
-/
theorem untracked_only_when_full_of_live (config : BanConfig) (hw : 0 < config.window)
    (hd : 0 < config.duration) :
    (∀ calls ip now, (calls.map Prod.snd ++ [now]).Pairwise (· ≤ ·) →
      let bans := (BanRun.of config calls).bans
      (bans.recordFailure ip now).1 = .untracked →
        bans.entries.lookup (banKey ip) = none ∧
        bans.entries.size = config.maxTracked ∧
        (∀ key entry, bans.entries.lookup key = some entry →
          ∃ t, t ≤ now ∧ now < t + durationFromSecs 1 ∧ entry.LiveAt config t) ∧
        (bans.recordFailure ip now).2 =
          { bans with lastFullPurge := (bans.recordFailure ip now).2.lastFullPurge }) ∧
    ∀ (bans : BanListInner) (ip : IpAddr) (now : Nat),
      (bans.entries.lookup (banKey ip)).isSome → (bans.recordFailure ip now).1 ≠ .untracked := by
  constructor
  · intro calls ip now hmono bans huntracked
    have hshape : TableShape config bans := tableShape_of config calls
    have hseen : SeenLive config now bans :=
      (seenLive_of hw hd calls (List.pairwise_append.mp hmono).1).mono (lastStamp_le hmono)
    cases hr : bans.recordFailure ip now with
    | mk verdict bans' =>
      rw [hr] at huntracked
      subst huntracked
      rcases BanListInner.recordFailure_room hr with
        ⟨-, hv, -⟩ | ⟨-, entry, -, ⟨-, hv, -⟩ | ⟨-, hv, -⟩⟩ |
        ⟨-, hl, ⟨hroom, -, rfl⟩ | ⟨-, hv, -⟩⟩
      · cases hv
      · cases hv
      · exact absurd hv.symm (addFailure_ne_untracked _ _ _)
      · obtain ⟨hsize, hentries, hpurge⟩ := makeRoom_eq_of_full hshape hroom
        refine ⟨hl, hsize, ?_, ?_⟩
        · intro key found hfound
          rcases hpurge with ⟨hdue, -⟩ | hpurged
          · -- a purge less than a second ago, and every entry live since
            unfold BanListInner.purgeDue at hdue
            cases hlast : bans.lastFullPurge with
            | none =>
              rw [hlast] at hdue
              cases hdue
            | some purged =>
              rw [hlast] at hdue
              have hrecent : ¬now - purged ≥ fullTablePurgeInterval := of_decide_eq_false hdue
              obtain ⟨t, hpt, htT, hlive⟩ := hseen.seen hlast hfound
              have hsecond : fullTablePurgeInterval = durationFromSecs 1 := rfl
              exact ⟨t, htT, by omega, hlive⟩
          · -- purged just now
            obtain ⟨t, hpt, htT, hlive⟩ := hseen.makeRoom.seen hpurged (hentries ▸ hfound)
            exact ⟨t, htT, by simp [durationFromSecs]; omega, hlive⟩
        · have hcfg := (BanListInner.makeRoom_cases bans now).1
          show (bans.makeRoom now).2 = _
          rw [← hentries, ← hcfg]
      · exact absurd hv.symm (addFailure_ne_untracked _ _ _)
  · intro bans ip now htracked huntracked
    cases hr : bans.recordFailure ip now with
    | mk verdict bans' =>
      rw [hr] at huntracked
      subst huntracked
      rcases BanListInner.recordFailure_room hr with
        ⟨-, hv, -⟩ | ⟨-, entry, -, ⟨-, hv, -⟩ | ⟨-, hv, -⟩⟩ | ⟨-, hl, -⟩
      · cases hv
      · cases hv
      · exact addFailure_ne_untracked _ _ _ hv.symm
      · rw [hl] at htracked
        cases htracked

/-- One tracked client fills the table of `config`, and the next one is turned away. -/
theorem untracked_only_when_full_of_live_one_slot :
    let config : BanConfig := ⟨5, 600, 3600, 1⟩
    let client : IpAddr := .v4 (.new 203 0 113 5)
    let other : IpAddr := .v4 (.new 198 51 100 7)
    let bans := (BanRun.of config [(.recordFailure client, 10)]).bans
    (bans.recordFailure other 20).1 = .untracked ∧ bans.entries.size = config.maxTracked := by
  intro config client other bans
  have huntracked : (bans.recordFailure other 20).1 = .untracked := by decide +kernel
  exact ⟨huntracked, ((untracked_only_when_full_of_live config (by decide) (by decide)).1
    [(.recordFailure client, 10)] other 20 (by decide) huntracked).2.1⟩

end SocksServer
