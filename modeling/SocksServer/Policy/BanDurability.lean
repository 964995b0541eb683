import SocksServer.Policy.BanHistory

/-!
# Bans when the stamps are out of order

`BanList` reads the clock before it takes the lock, so two threads may execute their calls in
the other order. Nothing here assumes monotone stamps.

* `TriggersSound` — a ban is backed by `max_failures` recent failures of its own key, all
  executed after the previous trigger
* `BansDurable` — until a call is stamped `duration` after the trigger, nothing removes,
  shortens or extends the ban

The second needs `duration > 0`. A saturated difference is 0, and `0 < duration` is what makes
a stamp before the trigger count as inside the ban. The settings refuse a zero duration.
-/

namespace SocksServer

open Infra

/-! ## Soundness of a trigger -/

/-- Stamps of the failures of a key executed after its previous trigger, newest first. -/
def failuresSinceTrigger (key : IpAddr) : List BanStep → List Nat
  | [] => []
  | step :: earlier =>
    match step.call with
    | .recordFailure ip =>
      if banKey ip = key then
        if step.triggered then [] else step.now :: failuresSinceTrigger key earlier
      else failuresSinceTrigger key earlier
    | _ => failuresSinceTrigger key earlier

/-- Every trigger has `max_failures` recent failures of its own key behind it. -/
def TriggersSound (config : BanConfig) : Prop :=
  ∀ calls later step earlier ip, (BanRun.of config calls).steps = later ++ step :: earlier →
    step.call = .recordFailure ip → step.triggered = true →
    config.maxFailures.toNat ≤
      (step.now :: failuresSinceTrigger (banKey ip) earlier).countP
        fun a => step.now < a + config.window

/-- The stored failures of every key are among those since its trigger. -/
def StoredSinceTrigger (run : BanRun) : Prop :=
  ∀ key p, (run.bans.entryOf key).failures.countP p ≤
    (failuresSinceTrigger key run.steps).countP p

theorem storedSinceTrigger_maybePurged {bans mid : BanListInner} {now : Nat}
    (hmid : bans.MaybePurged now mid) (key : IpAddr) (p : Nat → Bool) :
    (mid.entryOf key).failures.countP p ≤ (bans.entryOf key).failures.countP p := by
  rcases hmid.entryOf_cases key with he | ⟨he, _⟩
  · rw [he]
  · rw [he]; simp

/-- A failure that triggers went through `addFailure` and found enough failures there. -/
theorem triggers_iff (bans : BanListInner) (ip : IpAddr) (now : Nat) :
    bans.triggers ip now = true ↔
      (bans.recordFailure ip now).1 = .banned ∧
        (bans.entryOf (banKey ip)).banActive bans.config now = false := by
  unfold BanListInner.triggers
  rw [isBanned_eq_active]
  simp

theorem countP_pruned_le (config : BanConfig) (entry : BanEntry) (now : Nat) (p : Nat → Bool) :
    (entry.failures.filter (config.recent now) ++ [now]).countP p ≤
      entry.failures.countP p + (if p now then 1 else 0) := by
  rw [List.countP_append, List.countP_singleton]
  have := List.Sublist.countP_le (p := p) (List.filter_sublist (p := config.recent now)
    (l := entry.failures))
  omega

/-- All that is left after pruning lies within the window, the new failure included. -/
theorem length_pruned_eq {config : BanConfig} (hw : 0 < config.window) (entry : BanEntry)
    (now : Nat) :
    (entry.failures.filter (config.recent now) ++ [now]).length =
      (entry.failures.filter (config.recent now) ++ [now]).countP
        fun a => now < a + config.window := by
  symm
  apply List.countP_eq_length.mpr
  intro a ha
  rcases List.mem_append.mp ha with ha | ha
  · rw [← recent_iff hw]; exact (List.mem_filter.mp ha).2
  · rw [List.mem_singleton.mp ha]; simpa using hw

/--
What a failure does to the stored failures of its own key: nothing is stored, or it is
stored, or a ban starts and nothing is left.
-/
theorem recordFailure_failures {config : BanConfig} {bans : BanListInner} (ip : IpAddr) (now : Nat)
    (hcfg : bans.config = config) :
    let pruned := (bans.entryOf (banKey ip)).failures.filter (config.recent now) ++ [now]
    let entry := (bans.recordFailure ip now).2.entryOf (banKey ip)
    (bans.triggers ip now = false ∧ entry.failures = (bans.entryOf (banKey ip)).failures) ∨
    (bans.triggers ip now = false ∧ entry.failures = pruned) ∨
    (bans.triggers ip now = true ∧ entry.failures = [] ∧
      config.maxFailures.toNat ≤ pruned.length) := by
  intro pruned entry
  cases hr : bans.recordFailure ip now with
  | mk verdict bans' =>
    have hentry : entry = bans'.entryOf (banKey ip) := by simp only [entry, hr]
    have htriggers : bans.triggers ip now = true ↔ verdict = .banned ∧
        (bans.entryOf (banKey ip)).banActive config now = false := by
      rw [triggers_iff, hr, hcfg]
    rcases BanListInner.recordFailure_cases hr with
      ⟨_, hv, rfl⟩ | ⟨_, mid, _, hmid, hself, hcases⟩
    · exact .inl ⟨by simpa [hv] using htriggers, by rw [hentry]⟩
    · rw [hcfg] at hcases
      rcases hcases with ⟨_, hv, rfl⟩ | ⟨hb, hv, rfl⟩ | ⟨hb, hv, rfl⟩
      · exact .inl ⟨by simpa [hv] using htriggers, by rw [hentry, hself]⟩
      · exact .inl ⟨by simpa [hb] using htriggers, by rw [hentry, hself]⟩
      · rw [BanListInner.entryOf_insert, if_pos rfl] at hentry
        rw [hv] at htriggers
        simp only [BanEntry.addFailure, ge_iff_le] at hentry htriggers
        -- enough failures are left: this is where a ban starts
        by_cases hc : config.maxFailures.toNat ≤ pruned.length
        · rw [if_pos hc] at hentry htriggers
          exact .inr (.inr ⟨htriggers.mpr ⟨rfl, hb⟩, by rw [hentry], hc⟩)
        · rw [if_neg hc] at hentry htriggers
          exact .inr (.inl ⟨by simpa using htriggers, by rw [hentry]⟩)

/-- The other keys keep what they have, or lose it to a purge. -/
theorem recordFailure_failures_other {bans : BanListInner} {ip key : IpAddr} (now : Nat)
    (hk : banKey ip ≠ key) (p : Nat → Bool) :
    ((bans.recordFailure ip now).2.entryOf key).failures.countP p ≤
      (bans.entryOf key).failures.countP p := by
  cases hr : bans.recordFailure ip now with
  | mk verdict bans' =>
    rcases BanListInner.recordFailure_cases hr with ⟨_, _, rfl⟩ | ⟨_, mid, _, hmid, _, hcases⟩
    · exact le_rfl
    · have hkeep := storedSinceTrigger_maybePurged hmid key p
      rcases hcases with ⟨_, _, rfl⟩ | ⟨_, _, rfl⟩ | ⟨_, _, rfl⟩
      · exact hkeep
      · exact hkeep
      · rw [BanListInner.entryOf_insert, if_neg (fun he => hk he.symm)]
        exact hkeep

/-- One `record_failure`: what is stored stays backed. -/
theorem StoredSinceTrigger.recordFailure {run : BanRun} (h : StoredSinceTrigger run) (ip : IpAddr)
    (now : Nat) : StoredSinceTrigger (run.next (.recordFailure ip, now)) := by
  intro key p
  show ((run.bans.recordFailure ip now).2.entryOf key).failures.countP p ≤ _
  simp only [BanRun.next, BanListInner.exec, failuresSinceTrigger]
  have hstored := h key p
  by_cases hk : banKey ip = key
  · subst hk
    have hpruned := countP_pruned_le run.bans.config (run.bans.entryOf (banKey ip)) now p
    -- not stored, stored, or cleared by a trigger; the history has it in the first two cases
    rcases recordFailure_failures ip now rfl with ⟨ht, he⟩ | ⟨ht, he⟩ | ⟨ht, he, -⟩
    · rw [he, ht]
      simp only [if_true, Bool.false_eq_true, if_false, List.countP_cons]
      omega
    · rw [he, ht]
      simp only [if_true, Bool.false_eq_true, if_false, List.countP_cons]
      omega
    · rw [he]
      simp
  · rw [if_neg hk]
    exact le_trans (recordFailure_failures_other now hk p) hstored

/-- A trigger has enough failures of its own key behind it. -/
theorem StoredSinceTrigger.sound {config : BanConfig} {run : BanRun} (h : StoredSinceTrigger run)
    (hcfg : run.bans.config = config) (hw : 0 < config.window) {ip : IpAddr} {now : Nat}
    (ht : run.bans.triggers ip now = true) :
    config.maxFailures.toNat ≤ (now :: failuresSinceTrigger (banKey ip) run.steps).countP
      fun a => now < a + config.window := by
  rcases recordFailure_failures ip now hcfg with ⟨hf, -⟩ | ⟨hf, -⟩ | ⟨-, -, hc⟩
  · simp [ht] at hf
  · simp [ht] at hf
  · rw [length_pruned_eq hw] at hc
    have hpruned := countP_pruned_le config (run.bans.entryOf (banKey ip)) now
      fun a => decide (now < a + config.window)
    have hstored := h (banKey ip) fun a => decide (now < a + config.window)
    rw [List.countP_cons]
    omega

/-- What holds after every run: the stored failures are backed and all triggers were sound. -/
structure RunBacked (config : BanConfig) (run : BanRun) : Prop where
  config_eq : run.bans.config = config
  stored : StoredSinceTrigger run
  sound : ∀ later step earlier ip, run.steps = later ++ step :: earlier →
    step.call = .recordFailure ip → step.triggered = true →
    config.maxFailures.toNat ≤
      (step.now :: failuresSinceTrigger (banKey ip) earlier).countP
        fun a => step.now < a + config.window

theorem RunBacked.next {config : BanConfig} {run : BanRun} (h : RunBacked config run)
    (hw : 0 < config.window) (c : BanCall × Nat) : RunBacked config (run.next c) := by
  obtain ⟨call, now⟩ := c
  -- only the newest step can be a new trigger
  have hcons : ∀ new : BanStep, (∀ ip, new.call = .recordFailure ip → new.triggered = true →
      config.maxFailures.toNat ≤
        (new.now :: failuresSinceTrigger (banKey ip) run.steps).countP
          fun a => new.now < a + config.window) →
      ∀ later step earlier ip, new :: run.steps = later ++ step :: earlier →
        step.call = .recordFailure ip → step.triggered = true →
        config.maxFailures.toNat ≤
          (step.now :: failuresSinceTrigger (banKey ip) earlier).countP
            fun a => step.now < a + config.window := by
    intro new hnew later step earlier ip he hc ht
    cases later with
    | nil =>
      obtain ⟨rfl, rfl⟩ := List.cons.inj he
      exact hnew ip hc ht
    | cons s later => exact h.sound later step earlier ip (List.cons.inj he).2 hc ht
  cases call with
  | recordFailure ip =>
    refine ⟨?_, h.stored.recordFailure ip now, hcons _ ?_⟩
    · have := BanListInner.config_recordFailure run.bans ip now
      rw [← h.config_eq]; exact this
    · intro ip' hc ht
      cases hc
      exact h.stored.sound h.config_eq hw ht
  | isBanned ip => exact ⟨h.config_eq, h.stored, hcons _ (by simp)⟩
  | purge =>
    refine ⟨h.config_eq, ?_, hcons _ (by simp)⟩
    intro key p
    exact le_trans (storedSinceTrigger_maybePurged (Or.inr rfl) key p) (h.stored key p)
  | stats => exact ⟨h.config_eq, h.stored, hcons _ (by simp)⟩

theorem runBacked_of {config : BanConfig} (hw : 0 < config.window)
    (calls : List (BanCall × Nat)) : RunBacked config (BanRun.of config calls) := by
  induction calls using List.reverseRecOn with
  | nil =>
    refine ⟨rfl, ?_, ?_⟩
    · intro key p
      simp [BanRun.of, BanRun.start]
    · intro later _ _ _ he
      simp [BanRun.of, BanRun.start] at he
  | append_singleton calls c ih =>
    rw [BanRun.of_concat]
    exact ih.next hw c

/-! ## Durability of a ban -/

/-- The ban of `key` that started at `t0` is in force, whatever runs before its end. -/
def HoldsBan (config : BanConfig) (key : IpAddr) (t0 : Nat) (bans : BanListInner) : Prop :=
  bans.config = config ∧ (bans.entryOf key).bannedAt = some t0

/-- While no call is stamped `duration` after a trigger or later, the ban answers every call. -/
def BansDurable (config : BanConfig) : Prop :=
  ∀ calls ip t0, (BanRun.of config calls).bans.triggers ip t0 = true →
    ∀ more : List (BanCall × Nat), (∀ c ∈ more, c.2 < t0 + config.duration) →
      let bans := (more.foldl BanRun.next ((BanRun.of config calls).next (.recordFailure ip, t0))).bans
      ∀ ip' now, banKey ip' = banKey ip → now < t0 + config.duration →
        bans.isBanned ip' now = true ∧
        (bans.recordFailure ip' now).1 = .banned ∧
        (bans.entryOf (banKey ip)).bannedAt = some t0 ∧
        ((bans.recordFailure ip' now).2.entryOf (banKey ip)).bannedAt = some t0

namespace HoldsBan

variable {config : BanConfig} {key : IpAddr} {t0 now : Nat} {bans mid : BanListInner}

theorem banActive (h : HoldsBan config key t0 bans) (hd : 0 < config.duration)
    (hn : now < t0 + config.duration) : (bans.entryOf key).banActive config now = true := by
  unfold BanEntry.banActive
  rw [h.2]
  simp only [decide_eq_true_eq]
  omega

theorem maybePurged (h : HoldsBan config key t0 bans) (hd : 0 < config.duration)
    (hn : now < t0 + config.duration) (hmid : bans.MaybePurged now mid) :
    (mid.entryOf key).bannedAt = some t0 := by
  rcases hmid.entryOf_cases key with he | ⟨_, hl⟩
  · rw [he]; exact h.2
  · rw [h.1, BanEntry.live, h.banActive hd hn] at hl
    simp at hl

/-- A failure, of this client or another one, keeps the ban. -/
theorem recordFailure (h : HoldsBan config key t0 bans) (hd : 0 < config.duration)
    (hn : now < t0 + config.duration) (ip : IpAddr) :
    HoldsBan config key t0 (bans.recordFailure ip now).2 := by
  cases hr : bans.recordFailure ip now with
  | mk verdict bans' =>
    rcases BanListInner.recordFailure_cases hr with ⟨_, _, rfl⟩ | ⟨_, mid, hcfg, hmid, _, hcases⟩
    · exact h
    · have hkeep := h.maybePurged hd hn hmid
      rcases hcases with ⟨_, _, rfl⟩ | ⟨_, _, rfl⟩ | ⟨hb, _, rfl⟩
      · exact ⟨by rw [hcfg]; exact h.1, hkeep⟩
      · exact ⟨by rw [hcfg]; exact h.1, hkeep⟩
      · refine ⟨hcfg.trans h.1, ?_⟩
        rw [BanListInner.entryOf_insert]
        split
        · next hk =>
          -- the key itself is banned, so its failure never reaches the counter
          rw [← hk, h.1, h.banActive hd hn] at hb
          simp at hb
        · exact hkeep

theorem next (h : HoldsBan config key t0 bans) (hd : 0 < config.duration) {steps : List BanStep}
    {c : BanCall × Nat} (hn : c.2 < t0 + config.duration) :
    HoldsBan config key t0 (BanRun.next ⟨bans, steps⟩ c).bans := by
  obtain ⟨call, now⟩ := c
  cases call with
  | recordFailure ip => exact h.recordFailure hd hn ip
  | isBanned ip => exact h
  | purge => exact ⟨h.1, h.maybePurged hd hn (Or.inr rfl)⟩
  | stats => exact h

theorem foldl (hd : 0 < config.duration) : ∀ (more : List (BanCall × Nat)) (run : BanRun),
    HoldsBan config key t0 run.bans → (∀ c ∈ more, c.2 < t0 + config.duration) →
    HoldsBan config key t0 (more.foldl BanRun.next run).bans
  | [], _, h, _ => h
  | c :: more, run, h, hn =>
    foldl hd more (run.next c) (h.next hd (hn c List.mem_cons_self))
      fun d hd' => hn d (List.mem_cons_of_mem _ hd')

/-- While the ban holds, a further failure of the client is answered `banned`. -/
theorem verdict (h : HoldsBan config key t0 bans) (hmax : config.maxFailures ≠ 0)
    (hd : 0 < config.duration) (hn : now < t0 + config.duration) {ip : IpAddr}
    (hk : banKey ip = key) : (bans.recordFailure ip now).1 = .banned := by
  have hactive := h.banActive hd hn
  cases hr : bans.recordFailure ip now with
  | mk verdict bans' =>
    rcases BanListInner.recordFailure_cases hr with ⟨h0, _⟩ | ⟨_, _, _, _, _, hcases⟩
    · rw [h.1] at h0; exact absurd h0 hmax
    · rcases hcases with ⟨hnone, _⟩ | ⟨_, hv, _⟩ | ⟨hb, _⟩
      · have hdef : bans.entryOf key = {} := by
          rw [← hk]; simp [BanListInner.entryOf, hnone]
        rw [hdef] at hactive
        simp [BanEntry.banActive] at hactive
      · exact hv
      · rw [hk, h.1, hactive] at hb
        simp at hb

end HoldsBan

/-- A trigger leaves an entry whose ban starts at its own stamp. -/
theorem holdsBan_of_triggers {config : BanConfig} {bans : BanListInner} {ip : IpAddr} {t0 : Nat}
    (hcfg : bans.config = config) (ht : bans.triggers ip t0 = true) :
    HoldsBan config (banKey ip) t0 (bans.recordFailure ip t0).2 := by
  obtain ⟨hv, hinactive⟩ := (triggers_iff bans ip t0).mp ht
  cases hr : bans.recordFailure ip t0 with
  | mk verdict bans' =>
    rw [hr] at hv
    rcases BanListInner.recordFailure_cases hr with ⟨_, hd, _⟩ | ⟨_, mid, hmcfg, _, _, hcases⟩
    · rw [hd] at hv; simp at hv
    · rcases hcases with ⟨_, hu, _⟩ | ⟨hb, _⟩ | ⟨_, hadd, rfl⟩
      · rw [hu] at hv; simp at hv
      · rw [hb] at hinactive; simp at hinactive
      · refine ⟨hmcfg.trans hcfg, ?_⟩
        rw [BanListInner.entryOf_insert, if_pos rfl]
        have hban : ((bans.entryOf (banKey ip)).addFailure bans.config t0).1 = .banned := by
          rw [← hadd]; exact hv
        simp only [BanEntry.addFailure] at hban ⊢
        split
        · rfl
        · next hc => rw [if_neg hc] at hban; simp at hban

/-! ## Failures that stay stored -/

/-- Stored failures of a key that are still recent at `limit`. -/
def storedAt (config : BanConfig) (bans : BanListInner) (key : IpAddr) (limit : Nat) : Nat :=
  (bans.entryOf key).failures.countP (config.recent limit)

/-- A `record_failure` that puts a failure into the counter. -/
def FailureVerdict.isCounted : FailureVerdict → Bool
  | .counted _ => true
  | _ => false

section Stored

variable {config : BanConfig} {bans mid : BanListInner} {key ip : IpAddr} {now limit : Nat}

theorem recent_of_later (hnow : now ≤ limit) {a : Nat} (h : config.recent limit a = true) :
    config.recent now a = true := by
  unfold BanConfig.recent at h ⊢
  rw [decide_eq_true_eq] at h ⊢
  omega

/-- A purge keeps every failure that is recent now, so all that will be recent later. -/
theorem storedAt_maybePurged (key : IpAddr) (hconfig : bans.config = config)
    (hnow : now ≤ limit) (hmid : bans.MaybePurged now mid) :
    storedAt config bans key limit ≤ storedAt config mid key limit := by
  unfold storedAt
  rcases hmid.entryOf_cases key with he | ⟨-, hdead⟩
  · rw [he]
  · have hnone : (bans.entryOf key).failures.countP (config.recent limit) = 0 := by
      rw [List.countP_eq_zero]
      intro a ha hrecent
      have hlive : (bans.entryOf key).live bans.config now = true := by
        unfold BanEntry.live
        rw [Bool.or_eq_true, List.any_eq_true, hconfig]
        exact .inr ⟨a, ha, recent_of_later hnow hrecent⟩
      rw [hdead] at hlive
      cases hlive
    rw [hnone]
    exact Nat.zero_le _

/-- Pruning now loses nothing that will be recent later. -/
theorem countP_pruned (hnow : now ≤ limit) (failures : List Nat) :
    (failures.filter (config.recent now) ++ [now]).countP (config.recent limit) =
      failures.countP (config.recent limit) + (config.recent limit now).toNat := by
  have hkept : (failures.filter (config.recent now)).countP (config.recent limit) =
      failures.countP (config.recent limit) := by
    rw [List.countP_filter]
    refine List.countP_congr ?_
    intro a _
    rw [Bool.and_eq_true]
    exact ⟨And.left, fun h => ⟨h, recent_of_later hnow h⟩⟩
  rw [List.countP_append, hkept, List.countP_singleton]
  cases config.recent limit now <;> rfl

/-- **One `record_failure`** that starts no ban of this key: what it counts is stored. -/
theorem storedAt_recordFailure (key : IpAddr) (hconfig : bans.config = config)
    (hnow : now ≤ limit)
    (hother : bans.triggers ip now = true → banKey ip ≠ key) :
    storedAt config bans key limit +
      (banKey ip = key && (bans.recordFailure ip now).1.isCounted &&
        config.recent limit now).toNat ≤
      storedAt config (bans.recordFailure ip now).2 key limit := by
  cases hr : bans.recordFailure ip now with
  | mk verdict bans' =>
    have htriggers := triggers_iff bans ip now
    rw [hr] at htriggers
    rcases BanListInner.recordFailure_cases hr with ⟨-, rfl, rfl⟩ | ⟨-, mid, -, hmid, hself, hcases⟩
    · simp [FailureVerdict.isCounted]
    · have hkeep := storedAt_maybePurged key hconfig hnow hmid
      rcases hcases with ⟨-, rfl, rfl⟩ | ⟨-, rfl, rfl⟩ | ⟨hinactive, rfl, rfl⟩
      · simpa [FailureVerdict.isCounted] using hkeep
      · simpa [FailureVerdict.isCounted] using hkeep
      · unfold storedAt at hkeep ⊢
        rw [BanListInner.entryOf_insert]
        by_cases hk : key = banKey ip
        · subst hk
          rw [if_pos rfl]
          -- with enough failures a ban of this key would start
          have hnot : ((bans.entryOf (banKey ip)).addFailure bans.config now).1 ≠ .banned :=
            fun hbanned => hother (htriggers.mpr ⟨hbanned, hinactive⟩) rfl
          unfold BanEntry.addFailure at hnot ⊢
          dsimp only at hnot ⊢
          rw [hconfig] at hnot ⊢
          split
          · next hc =>
            rw [if_pos hc] at hnot
            exact absurd rfl hnot
          · rw [countP_pruned hnow]
            simp [FailureVerdict.isCounted]
        · rw [if_neg hk]
          simpa [Ne.symm hk] using hkeep

end Stored

/-! ## Both -/

theorem bansDurable_of_pos {config : BanConfig} (hmax : config.maxFailures ≠ 0)
    (hw : 0 < config.window) (hd : 0 < config.duration) : BansDurable config := by
  intro calls ip t0 ht more hmore bans ip' now hk hn
  have hcfg := (runBacked_of hw calls).config_eq
  have hfirst : HoldsBan config (banKey ip) t0
      ((BanRun.of config calls).next (.recordFailure ip, t0)).bans :=
    holdsBan_of_triggers hcfg ht
  have h : HoldsBan config (banKey ip) t0 bans := HoldsBan.foldl hd more _ hfirst hmore
  refine ⟨?_, h.verdict hmax hd hn hk, h.2, (h.recordFailure hd hn ip').2⟩
  rw [isBanned_eq_active, hk, h.1]
  exact h.banActive hd hn

/--
**Bans are sound and durable for any order of stamps**, the second for every nonzero ban
duration.
-/
theorem bans_sound_and_durable (config : BanConfig) (hmax : config.maxFailures ≠ 0)
    (hw : 0 < config.window) :
    TriggersSound config ∧ (0 < config.duration → BansDurable config) :=
  ⟨fun calls => (runBacked_of hw calls).sound, fun hd => bansDurable_of_pos hmax hw hd⟩

/-- Two failures of one client ban it; after a purge an earlier stamp still finds the ban. -/
theorem bans_sound_and_durable_two_failures :
    let config : BanConfig := ⟨2, 600, 3600, 100⟩
    let client : IpAddr := .v4 (.new 203 0 113 5)
    let run := BanRun.of config [(.recordFailure client, 1000)]
    run.bans.triggers client 900 = true ∧
      ([(.purge, 4000)].foldl BanRun.next (run.next (.recordFailure client, 900))).bans.isBanned
        client 700 = true := by
  intro config client run
  have ht : run.bans.triggers client 900 = true := by decide +kernel
  have hmore : ∀ c ∈ [(BanCall.purge, 4000)], c.2 < 900 + 3600 := by decide
  have h := (bans_sound_and_durable config (by decide) (by decide)).2 (by decide)
  exact ⟨ht, (h _ client 900 ht _ hmore client 700 rfl (show 700 < 900 + 3600 by decide)).1⟩

/-- With a zero duration, a stamp before the trigger finds no ban. -/
theorem zero_duration_ban_not_durable :
    ¬ ∀ config : BanConfig, config.maxFailures ≠ 0 → 0 < config.window →
      TriggersSound config ∧ BansDurable config := by
  intro h
  have hd := (h ⟨1, 1, 0, 10⟩ (by decide) (by decide)).2
  have hb := (hd [] (.v4 (.new 203 0 113 5)) 5 (by decide +kernel) [] (by simp)
    (.v4 (.new 203 0 113 5)) 3 rfl (by decide)).1
  revert hb
  decide +kernel

end SocksServer
