import SocksServer.Policy.BanListInner

/-!
# The ban list against the full history of a client

The implementation prunes failures lazily, clears them on a ban, forgets whole entries on a
purge and re-creates them from the default. The specification here never forgets anything:
it replays all failures of one ban key.

* a failure at `t` is *counted* unless it lies within `duration` after the latest trigger
* a counted failure *triggers* a ban when at least `max_failures` counted failures since the
  latest trigger, this one included, have stamps later than `t - window`

`Agrees` relates the two: from the time `T` of the last call on, the entry of a key gives the
same answers as the replay. An absent entry is the default entry, so a purge of a stale entry
is covered by the same relation.
-/

namespace SocksServer

open Infra

/-! ## Runs of calls -/

inductive BanCall where
  | recordFailure (ip : IpAddr)
  | isBanned (ip : IpAddr)
  | purge
  | stats
  deriving DecidableEq, Repr

inductive BanAnswer where
  | verdict (verdict : FailureVerdict)
  | banned (banned : Bool)
  | purged (count : Nat)
  | stats (stats : BanListStats)
  deriving DecidableEq, Repr

namespace BanListInner

def exec (bans : BanListInner) (call : BanCall) (now : Nat) : BanAnswer × BanListInner :=
  match call with
  | .recordFailure ip =>
    let (verdict, bans) := bans.recordFailure ip now
    (.verdict verdict, bans)
  | .isBanned ip => (.banned (bans.isBanned ip now), bans)
  | .purge =>
    let (count, bans) := bans.purge now
    (.purged count, bans)
  | .stats => (.stats (bans.stats now), bans)

/-- The failure bans the key, and it was not banned already. -/
def triggers (bans : BanListInner) (ip : IpAddr) (now : Nat) : Bool :=
  (bans.recordFailure ip now).1 == .banned && !bans.isBanned ip now

end BanListInner

/-- An executed call. -/
structure BanStep where
  call : BanCall
  now : Nat
  answer : BanAnswer
  /-- It was a `record_failure` that started a ban. -/
  triggered : Bool

structure BanRun where
  bans : BanListInner
  /-- Executed calls, newest first. -/
  steps : List BanStep

namespace BanRun

def start (config : BanConfig) : BanRun := ⟨.new config, []⟩

def next (run : BanRun) (c : BanCall × Nat) : BanRun :=
  let (answer, bans) := run.bans.exec c.1 c.2
  let triggered :=
    match c.1 with
    | .recordFailure ip => run.bans.triggers ip c.2
    | _ => false
  ⟨bans, ⟨c.1, c.2, answer, triggered⟩ :: run.steps⟩

/-- The run that executes `calls` in order. -/
def of (config : BanConfig) (calls : List (BanCall × Nat)) : BanRun :=
  calls.foldl next (start config)

theorem of_concat (config : BanConfig) (calls : List (BanCall × Nat))
    (c : BanCall × Nat) : of config (calls ++ [c]) = (of config calls).next c := by
  simp [of]

end BanRun

/-! ## The specification -/

/-- What the full history of a key says about it. -/
structure Standing where
  latestTrigger : Option Nat
  /-- Counted failures since the latest trigger, newest first. -/
  counted : List Nat

namespace Standing

/-- `t` lies within `duration` after the latest trigger. -/
def inBan (config : BanConfig) (standing : Standing) (t : Nat) : Bool :=
  match standing.latestTrigger with
  | some b => t < b + config.duration
  | none => false

/-- Counted failures with stamps later than `t - window`, a new one at `t` included. -/
def countAt (config : BanConfig) (standing : Standing) (t : Nat) : Nat :=
  (t :: standing.counted).countP fun a => t < a + config.window

/-- A further failure at `t`. -/
def fail (config : BanConfig) (standing : Standing) (t : Nat) : Standing :=
  if standing.inBan config t then standing
  else if config.maxFailures.toNat ≤ standing.countAt config t then ⟨some t, []⟩
  else ⟨standing.latestTrigger, t :: standing.counted⟩

/-- What `record_failure` has to answer for a failure at `t`. -/
def judge (config : BanConfig) (standing : Standing) (t : Nat) : FailureVerdict :=
  if standing.inBan config t then .banned
  else if config.maxFailures.toNat ≤ standing.countAt config t then .banned
  else .counted (standing.countAt config t)

/--
Nothing of the history counts at `t`: no ban is active, and a new failure would be the only one.
-/
def Idle (config : BanConfig) (standing : Standing) (t : Nat) : Prop :=
  standing.inBan config t = false ∧ standing.countAt config t = 1

end Standing

/-- Replays a whole history, newest failure first. -/
def standing (config : BanConfig) : List Nat → Standing
  | [] => ⟨none, []⟩
  | t :: past => (standing config past).fail config t

/-- Stamps of the tracked failures of a key, newest first. -/
def trackedFailures (key : IpAddr) : List BanStep → List Nat
  | [] => []
  | step :: earlier =>
    match step.call with
    | .recordFailure ip =>
      if banKey ip = key ∧ step.answer ≠ .verdict .untracked then
        step.now :: trackedFailures key earlier
      else trackedFailures key earlier
    | _ => trackedFailures key earlier

/--
The answer is the one the history of the same key gives. A failure may go untracked, but only
while nothing of that history counts any more.
-/
def Explained (config : BanConfig) (earlier : List BanStep) (step : BanStep) : Prop :=
  match step.call with
  | .recordFailure ip =>
    (step.answer = .verdict .untracked ∧
        (standing config (trackedFailures (banKey ip) earlier)).Idle config step.now) ∨
      step.answer = .verdict
        ((standing config (trackedFailures (banKey ip) earlier)).judge config step.now)
  | .isBanned ip =>
    step.answer = .banned
      ((standing config (trackedFailures (banKey ip) earlier)).inBan config step.now)
  | .purge => True
  | .stats => True

/-! ## Windows -/

theorem recent_iff {config : BanConfig} (hw : 0 < config.window) (now at_ : Nat) :
    config.recent now at_ = decide (now < at_ + config.window) := by
  unfold BanConfig.recent
  by_cases h : now < at_ + config.window
  · rw [decide_eq_true h, decide_eq_true (by omega)]
  · rw [decide_eq_false h, decide_eq_false (by omega)]

/-- What no longer counts at `now` does not count later. -/
theorem recent_of_le {config : BanConfig} {now later at_ : Nat} (h : now ≤ later)
    (hr : config.recent later at_ = true) : config.recent now at_ = true := by
  unfold BanConfig.recent at *
  simp only [decide_eq_true_eq] at *
  omega

theorem banActive_of_le {config : BanConfig} {entry : BanEntry} {now later : Nat}
    (h : now ≤ later) (hb : entry.banActive config later = true) :
    entry.banActive config now = true := by
  unfold BanEntry.banActive at *
  cases hat : entry.bannedAt with
  | none => rw [hat] at hb; simp at hb
  | some at_ =>
    rw [hat] at hb
    simp only [decide_eq_true_eq] at *
    omega

/-! ## The simulation relation -/

/-- From `T` on, the entry gives the answers of the history `past`. -/
structure Agrees (config : BanConfig) (T : Nat) (past : List Nat) (entry : BanEntry) :
    Prop where
  trigger_le : ∀ b, (standing config past).latestTrigger = some b → b ≤ T
  active : ∀ t, T ≤ t → entry.banActive config t = (standing config past).inBan config t
  failures : ∀ t, T ≤ t →
    entry.failures.countP (config.recent t) =
      (standing config past).counted.countP fun a => t < a + config.window

namespace Agrees

variable {config : BanConfig} {T now : Nat} {past : List Nat} {entry : BanEntry}

theorem nil (config : BanConfig) : Agrees config 0 [] {} where
  trigger_le := by simp [standing]
  active := fun _ _ => rfl
  failures := fun _ _ => rfl

theorem mono (h : Agrees config T past entry) (hT : T ≤ now) : Agrees config now past entry where
  trigger_le := fun b hb => le_trans (h.trigger_le b hb) hT
  active := fun t ht => h.active t (le_trans hT ht)
  failures := fun t ht => h.failures t (le_trans hT ht)

/-- An entry that is not live at `now` may be forgotten. -/
theorem forget (h : Agrees config T past entry) (hT : T ≤ now)
    (hl : entry.live config now = false) : Agrees config now past {} where
  trigger_le := (h.mono hT).trigger_le
  active := by
    intro t ht
    rw [← h.active t (le_trans hT ht)]
    have hb : entry.banActive config t = false := by
      by_contra hb
      have := banActive_of_le ht (by simpa using hb)
      simp [BanEntry.live, this] at hl
    rw [hb]; rfl
  failures := by
    intro t ht
    rw [← h.failures t (le_trans hT ht)]
    symm
    apply List.countP_eq_zero.mpr
    intro a ha hr
    have : entry.failures.any (config.recent now) = true :=
      List.any_eq_true.mpr ⟨a, ha, recent_of_le ht hr⟩
    simp [BanEntry.live, this] at hl

/-- The history of an address without an entry. -/
theorem idle (h : Agrees config T past {}) (hw : 0 < config.window) (hT : T ≤ now) :
    (standing config past).Idle config now := by
  refine ⟨(h.active now hT).symm, ?_⟩
  have hcounted := h.failures now hT
  rw [Standing.countAt, List.countP_cons_of_pos (by simpa using hw), ← hcounted]
  rfl

/-- A failure during a ban changes neither side. -/
theorem fail_of_active (h : Agrees config T past entry) (hT : T ≤ now)
    (hb : entry.banActive config now = true) : Agrees config now (now :: past) entry := by
  have hs : standing config (now :: past) = standing config past := by
    rw [standing, Standing.fail, if_pos (by rw [← h.active now hT]; exact hb)]
  have hm := h.mono hT
  exact ⟨by rw [hs]; exact hm.trigger_le, by rw [hs]; exact hm.active,
    by rw [hs]; exact hm.failures⟩

/-- What is left after pruning, the new failure included, is the count of the history. -/
theorem length_pruned (h : Agrees config T past entry) (hw : 0 < config.window) (hT : T ≤ now) :
    (entry.failures.filter (config.recent now) ++ [now]).length =
      (standing config past).countAt config now := by
  rw [List.length_append, List.length_singleton, ← List.countP_eq_length_filter,
    h.failures now hT]
  simp [Standing.countAt, hw]

/-- A failure outside a ban is counted alike on both sides. -/
theorem fail_of_not_active (h : Agrees config T past entry) (hw : 0 < config.window)
    (hT : T ≤ now) (hb : entry.banActive config now = false) :
    (entry.addFailure config now).1 = (standing config past).judge config now ∧
      Agrees config now (now :: past) (entry.addFailure config now).2 := by
  have hban : (standing config past).inBan config now = false := by
    rw [← h.active now hT]; exact hb
  have hlen := h.length_pruned hw hT
  unfold BanEntry.addFailure Standing.judge
  simp only [hban, Bool.false_eq_true, if_false, ge_iff_le]
  by_cases hc : config.maxFailures.toNat ≤ (standing config past).countAt config now
  · -- the ban starts: both sides have no counted failures left
    have hs : standing config (now :: past) = ⟨some now, []⟩ := by
      rw [standing, Standing.fail, if_neg (by rw [hban]; simp), if_pos hc]
    rw [hlen, if_pos hc, if_pos hc]
    refine ⟨rfl, ?_, ?_, ?_⟩
    · rw [hs]; intro b hb'; rw [← Option.some.inj hb']
    · intro t ht
      rw [hs]
      simp only [BanEntry.banActive, Standing.inBan]
      by_cases hd : t < now + config.duration
      · rw [decide_eq_true hd, decide_eq_true (by omega)]
      · rw [decide_eq_false hd, decide_eq_false (by omega)]
    · intro t _; rw [hs]; rfl
  · have hs : standing config (now :: past) =
        ⟨(standing config past).latestTrigger, now :: (standing config past).counted⟩ := by
      rw [standing, Standing.fail, if_neg (by rw [hban]; simp), if_neg hc]
    rw [hlen, if_neg hc, if_neg hc]
    refine ⟨rfl, ?_, ?_, ?_⟩
    · rw [hs]; exact (h.mono hT).trigger_le
    · -- `banned_at` is cleared, which the history does not do: that ban is over from now on
      intro t ht
      have hexp : (standing config past).inBan config t = false := by
        rw [← h.active t (le_trans hT ht)]
        by_contra ha
        rw [banActive_of_le ht (by simpa using ha)] at hb
        simp at hb
      rw [hs]
      show false = Standing.inBan config ⟨(standing config past).latestTrigger, _⟩ t
      rw [← hexp]
      rfl
    · -- what was pruned at `now` is not recent later on either
      intro t ht
      rw [hs, List.countP_append, List.countP_filter, List.countP_cons]
      have hsame : (entry.failures.countP fun a => config.recent t a && config.recent now a) =
          entry.failures.countP (config.recent t) := by
        apply List.countP_congr
        intro a _
        constructor
        · intro hr; simp only [Bool.and_eq_true] at hr; exact hr.1
        · intro hr; simp only [Bool.and_eq_true]; exact ⟨hr, recent_of_le ht hr⟩
      rw [hsame, h.failures t (le_trans hT ht)]
      simp [List.countP_cons, recent_iff hw]

end Agrees

/-! ## One call -/

theorem addFailure_ne_untracked (config : BanConfig) (entry : BanEntry) (now : Nat) :
    (entry.addFailure config now).1 ≠ .untracked := by
  simp only [BanEntry.addFailure]
  split <;> simp

section Step

variable {config : BanConfig} {T now : Nat} {past : IpAddr → List Nat}
  {bans bans' mid : BanListInner}

theorem agrees_maybePurged (hcfg : bans.config = config)
    (h : ∀ key, Agrees config T (past key) (bans.entryOf key)) (hT : T ≤ now)
    (hmid : bans.MaybePurged now mid) (key : IpAddr) :
    Agrees config now (past key) (mid.entryOf key) := by
  rcases hmid.entryOf_cases key with he | ⟨he, hl⟩
  · rw [he]; exact (h key).mono hT
  · rw [he]; exact (h key).forget hT (by rw [← hcfg]; exact hl)

/-- A `record_failure` answers like the history of its key and keeps the relation. -/
theorem agrees_recordFailure {ip : IpAddr} {verdict : FailureVerdict}
    (hcfg : bans.config = config) (hmax : config.maxFailures ≠ 0) (hw : 0 < config.window)
    (h : ∀ key, Agrees config T (past key) (bans.entryOf key)) (hT : T ≤ now)
    (hr : bans.recordFailure ip now = (verdict, bans')) :
    (verdict = .untracked ∧ (standing config (past (banKey ip))).Idle config now ∨
        verdict = (standing config (past (banKey ip))).judge config now) ∧
      ∀ key, Agrees config now
        (if banKey ip = key ∧ verdict ≠ .untracked then now :: past key else past key)
        (bans'.entryOf key) := by
  rcases BanListInner.recordFailure_cases hr with ⟨h0, _⟩ | ⟨_, mid, _, hmid, hself, hcases⟩
  · rw [hcfg] at h0; exact absurd h0 hmax
  -- the purge of `make_room` comes first; it keeps the relation for every key
  have hkeep := agrees_maybePurged hcfg h hT hmid
  rw [hcfg] at hcases
  rcases hcases with ⟨hl, hv, rfl⟩ | ⟨hb, hv, rfl⟩ | ⟨hb, hv, rfl⟩
  · have hnone : bans.entryOf (banKey ip) = {} := by simp [BanListInner.entryOf, hl]
    have hidle := Agrees.idle (hnone ▸ h (banKey ip)) hw hT
    exact ⟨Or.inl ⟨hv, hidle⟩, fun key => by rw [if_neg (by simp [hv])]; exact hkeep key⟩
  · have hban : (standing config (past (banKey ip))).inBan config now = true := by
      rw [← (h (banKey ip)).active now hT]; exact hb
    refine ⟨Or.inr (by rw [hv, Standing.judge, if_pos hban]), ?_⟩
    intro key
    by_cases hk : banKey ip = key
    · subst hk
      rw [if_pos ⟨rfl, by simp [hv]⟩, hself]
      exact (h (banKey ip)).fail_of_active hT hb
    · rw [if_neg (fun hc => hk hc.1)]; exact hkeep key
  · obtain ⟨hjudge, hnew⟩ := (h (banKey ip)).fail_of_not_active hw hT hb
    have hne : verdict ≠ .untracked := by rw [hv]; exact addFailure_ne_untracked _ _ _
    refine ⟨Or.inr (by rw [hv, hjudge]), ?_⟩
    intro key
    rw [BanListInner.entryOf_insert]
    by_cases hk : banKey ip = key
    · subst hk
      rw [if_pos ⟨rfl, hne⟩, if_pos rfl]; exact hnew
    · rw [if_neg (fun hc => hk hc.1), if_neg (fun hc => hk hc.symm)]; exact hkeep key

end Step

/-! ## Whole runs -/

/-- The relation for every key, and every answer so far explained by it. -/
structure RunAgrees (config : BanConfig) (T : Nat) (run : BanRun) : Prop where
  config_eq : run.bans.config = config
  agrees : ∀ key, Agrees config T (trackedFailures key run.steps) (run.bans.entryOf key)
  explained : ∀ later step earlier, run.steps = later ++ step :: earlier →
    Explained config earlier step

theorem isBanned_eq_active (bans : BanListInner) (ip : IpAddr) (now : Nat) :
    bans.isBanned ip now = (bans.entryOf (banKey ip)).banActive bans.config now := by
  unfold BanListInner.isBanned BanListInner.entryOf
  cases bans.entries.lookup (banKey ip) <;> rfl

/-- Adding the newest step keeps the older explanations. -/
theorem explained_cons {config : BanConfig} {steps : List BanStep} {new : BanStep}
    (hold : ∀ later step earlier, steps = later ++ step :: earlier → Explained config earlier step)
    (hnew : Explained config steps new) :
    ∀ later step earlier, new :: steps = later ++ step :: earlier →
      Explained config earlier step := by
  intro later step earlier he
  cases later with
  | nil =>
    obtain ⟨rfl, rfl⟩ := List.cons.inj he
    exact hnew
  | cons s later => exact hold later step earlier (List.cons.inj he).2

/-- One call keeps the relation. -/
theorem RunAgrees.next {config : BanConfig} {T : Nat} {run : BanRun}
    (h : RunAgrees config T run) (hmax : config.maxFailures ≠ 0) (hw : 0 < config.window)
    {c : BanCall × Nat} (hT : T ≤ c.2) : RunAgrees config c.2 (run.next c) := by
  obtain ⟨call, now⟩ := c
  cases call with
  | recordFailure ip =>
    cases hr : run.bans.recordFailure ip now with
    | mk verdict bans' =>
      obtain ⟨hv, hk⟩ := agrees_recordFailure h.config_eq hmax hw h.agrees hT hr
      have hnext : run.next (.recordFailure ip, now) =
          ⟨bans', ⟨.recordFailure ip, now, .verdict verdict, run.bans.triggers ip now⟩
            :: run.steps⟩ := by
        simp only [BanRun.next, BanListInner.exec, hr]
      rw [hnext]
      refine ⟨?_, ?_, explained_cons h.explained ?_⟩
      · have := BanListInner.config_recordFailure run.bans ip now
        rw [hr] at this
        rw [← h.config_eq]; exact this
      · intro key
        simp only [trackedFailures, ne_eq, BanAnswer.verdict.injEq]
        exact hk key
      · show _ ∨ _
        rcases hv with ⟨hv, hidle⟩ | hv
        · exact Or.inl ⟨by rw [hv], hidle⟩
        · exact Or.inr (by rw [hv])
  | isBanned ip =>
    refine ⟨h.config_eq, fun key => (h.agrees key).mono hT, explained_cons h.explained ?_⟩
    show BanAnswer.banned _ = _
    rw [isBanned_eq_active, h.config_eq, (h.agrees (banKey ip)).active now hT]
  | purge =>
    refine ⟨h.config_eq, ?_, explained_cons h.explained trivial⟩
    exact agrees_maybePurged h.config_eq h.agrees hT (Or.inr rfl)
  | stats =>
    exact ⟨h.config_eq, fun key => (h.agrees key).mono hT, explained_cons h.explained trivial⟩

/-- The stamp of the last call; 0 before the first. -/
def lastStamp (calls : List (BanCall × Nat)) : Nat :=
  (calls.getLast?.map Prod.snd).getD 0

theorem lastStamp_le {calls : List (BanCall × Nat)} {now : Nat}
    (h : ((calls.map Prod.snd) ++ [now]).Pairwise (· ≤ ·)) : lastStamp calls ≤ now := by
  unfold lastStamp
  cases hl : calls.getLast? with
  | none => simp
  | some d =>
    have hd : d ∈ calls := List.mem_of_getLast? hl
    exact (List.pairwise_append.mp h).2.2 d.2 (List.mem_map_of_mem hd) now (by simp)

theorem runAgrees_of {config : BanConfig} (hmax : config.maxFailures ≠ 0) (hw : 0 < config.window)
    (calls : List (BanCall × Nat)) (hmono : (calls.map Prod.snd).Pairwise (· ≤ ·)) :
    RunAgrees config (lastStamp calls) (BanRun.of config calls) := by
  -- the newest call is last, so the induction is on the end of the list
  induction calls using List.reverseRecOn with
  | nil =>
    exact ⟨rfl, fun _ => Agrees.nil config,
      fun later _ _ he => by simp [BanRun.of, BanRun.start] at he⟩
  | append_singleton calls c ih =>
    rw [List.map_append] at hmono
    have hstamp : lastStamp (calls ++ [c]) = c.2 := by simp [lastStamp]
    rw [hstamp, BanRun.of_concat]
    exact (ih (List.pairwise_append.mp hmono).1).next hmax hw (lastStamp_le hmono)

theorem config_of (config : BanConfig) (calls : List (BanCall × Nat)) :
    (BanRun.of config calls).bans.config = config := by
  induction calls using List.reverseRecOn with
  | nil => rfl
  | append_singleton calls c ih =>
    obtain ⟨call, now⟩ := c
    rw [BanRun.of_concat]
    cases call with
    | recordFailure ip => exact (BanListInner.config_recordFailure _ ip now).trans ih
    | isBanned | purge | stats => exact ih

/-- Only an address without an entry goes untracked, and only while the table is full. -/
theorem full_of_untracked {bans : BanListInner} {ip : IpAddr} {now : Nat}
    (h : (bans.recordFailure ip now).1 = .untracked) :
    bans.entries.lookup (banKey ip) = none ∧ bans.config.maxTracked ≤ bans.entries.size := by
  cases hr : bans.recordFailure ip now with
  | mk verdict bans' =>
    rw [hr] at h
    obtain rfl : verdict = .untracked := h
    rcases BanListInner.recordFailure_room hr with ⟨-, hv, -⟩ | ⟨-, entry, -, hcases⟩ |
      ⟨-, hl, hcases⟩
    · cases hv
    · rcases hcases with ⟨-, hv, -⟩ | ⟨-, hv, -⟩
      · cases hv
      · exact absurd hv.symm (addFailure_ne_untracked _ _ _)
    · rcases hcases with ⟨hroom, -, -⟩ | ⟨-, hv, -⟩
      · refine ⟨hl, ?_⟩
        rcases bans.makeRoom_eq now with ⟨-, he⟩ | ⟨hfull, -, -⟩ | ⟨hfull, -, -⟩
        · rw [he] at hroom
          cases hroom
        · exact hfull
        · exact hfull
      · exact absurd hv.symm (addFailure_ne_untracked _ _ _)

/--
**The ban list refines the history of each client.**

In every run with nondecreasing stamps, every answer for an address is the one the tracked
failures of its own key give. A failure goes untracked only when the table is full and its key has
no entry, and then no ban of the key is active and none of its failures counts. Two calls in two runs whose keys
have the same tracked failures are answered alike, whatever purges and other clients stand
between, unless one of them was not tracked for want of anything that counts.
-/
theorem ban_answers_follow_history (config : BanConfig) (hmax : config.maxFailures ≠ 0)
    (hw : 0 < config.window) :
    (∀ calls, (calls.map Prod.snd).Pairwise (· ≤ ·) →
      ∀ later step earlier, (BanRun.of config calls).steps = later ++ step :: earlier →
        Explained config earlier step) ∧
    (∀ calls ip now, ((BanRun.of config calls).bans.recordFailure ip now).1 = .untracked →
      (BanRun.of config calls).bans.entries.lookup (banKey ip) = none ∧
        config.maxTracked ≤ (BanRun.of config calls).bans.entries.size) ∧
    (∀ calls₁ calls₂, (calls₁.map Prod.snd).Pairwise (· ≤ ·) →
      (calls₂.map Prod.snd).Pairwise (· ≤ ·) →
      ∀ later₁ step₁ earlier₁ later₂ step₂ earlier₂,
        (BanRun.of config calls₁).steps = later₁ ++ step₁ :: earlier₁ →
        (BanRun.of config calls₂).steps = later₂ ++ step₂ :: earlier₂ →
        step₁.now = step₂.now →
        ∀ ip₁ ip₂, banKey ip₁ = banKey ip₂ →
          trackedFailures (banKey ip₁) earlier₁ = trackedFailures (banKey ip₂) earlier₂ →
          (step₁.call = .isBanned ip₁ → step₂.call = .isBanned ip₂ →
            step₁.answer = step₂.answer) ∧
          (step₁.call = .recordFailure ip₁ → step₂.call = .recordFailure ip₂ →
            step₁.answer = step₂.answer ∨
              (step₁.answer = .verdict .untracked ∨ step₂.answer = .verdict .untracked) ∧
                (standing config (trackedFailures (banKey ip₁) earlier₁)).Idle config
                  step₁.now)) := by
  have hall : ∀ calls, (calls.map Prod.snd).Pairwise (· ≤ ·) →
      ∀ later step earlier, (BanRun.of config calls).steps = later ++ step :: earlier →
        Explained config earlier step :=
    fun calls hmono => (runAgrees_of hmax hw calls hmono).explained
  have hfull : ∀ calls ip now,
      ((BanRun.of config calls).bans.recordFailure ip now).1 = .untracked →
        (BanRun.of config calls).bans.entries.lookup (banKey ip) = none ∧
          config.maxTracked ≤ (BanRun.of config calls).bans.entries.size := by
    intro calls ip now huntracked
    obtain ⟨hnone, hsize⟩ := full_of_untracked huntracked
    rw [config_of] at hsize
    exact ⟨hnone, hsize⟩
  refine ⟨hall, hfull, ?_⟩
  intro calls₁ calls₂ hm₁ hm₂ later₁ step₁ earlier₁ later₂ step₂ earlier₂ hs₁ hs₂ hnow ip₁ ip₂
    _ hsame
  have h₁ := hall calls₁ hm₁ later₁ step₁ earlier₁ hs₁
  have h₂ := hall calls₂ hm₂ later₂ step₂ earlier₂ hs₂
  unfold Explained at h₁ h₂
  constructor
  · intro hc₁ hc₂
    rw [hc₁] at h₁
    rw [hc₂] at h₂
    simp only [] at h₁ h₂
    rw [h₁, h₂, hsame, hnow]
  · intro hc₁ hc₂
    rw [hc₁] at h₁
    rw [hc₂] at h₂
    simp only [] at h₁ h₂
    rw [← hsame, ← hnow] at h₂
    rcases h₁ with ⟨h₁, hidle⟩ | h₁
    · exact Or.inr ⟨Or.inl h₁, hidle⟩
    · rcases h₂ with ⟨h₂, hidle⟩ | h₂
      · exact Or.inr ⟨Or.inr h₂, hidle⟩
      · exact Or.inl (by rw [h₁, h₂])

/-- A purge between two failures: the second one still finds the first and bans the client. -/
theorem ban_answers_follow_history_across_purge :
    let config : BanConfig := ⟨2, 600, 3600, 100⟩
    let client : IpAddr := .v4 (.new 203 0 113 5)
    let calls := [(.recordFailure client, 10), (.purge, 20), (.recordFailure client, 30)]
    ∃ step earlier, (BanRun.of config calls).steps = step :: earlier ∧
      step.answer = .verdict .banned ∧ Explained config earlier step := by
  intro config client calls
  refine ⟨_, _, rfl, by decide +kernel, ?_⟩
  exact (ban_answers_follow_history config (by decide) (by decide)).1 calls (by decide) [] _ _ rfl

end SocksServer
