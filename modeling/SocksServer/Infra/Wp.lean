import SocksServer.Infra.Machine
import SocksServer.Infra.Stream

/-!
# Weakest preconditions for tasks

A task runs in a world that keeps what it has read and written and answers what it asks for.
The surroundings are free to choose: how much a read or write moves, where an I/O error
comes, which timer fires, which of the possible answers is given.

`wp W I p Q w` says: whatever the surroundings do with the task `p` in the world `w`,

* the invariant `I true` holds wherever the task stands at an await point, and `I false`
  wherever it is about to make a call, and
* `Q` holds of its result and of the world when it is finished.

There is one rule for each way to build a task (`wp_bind`, `wp_timeout`, `wp_readExact`, …).
`wp_sound` is what it means for runs.
-/

namespace Infra

/-- What a task reads and writes, and which answers it can get. -/
structure World (S : Sig) (σ : Type) where
  recv : σ → Bytes → σ
  send : σ → Bytes → σ
  recv_nil : ∀ w, recv w [] = w
  recv_append : ∀ w c d, recv w (c ++ d) = recv (recv w c) d
  send_nil : ∀ w, send w [] = w
  send_append : ∀ w c d, send w (c ++ d) = send (send w c) d
  /-- The world after the answer `r`. `none` when it cannot be given. -/
  await : (op : S.Op) → S.Ret op → σ → Option σ
  call : (c : S.Call) → S.Res c → σ → Option σ

namespace World

variable {S : Sig} {σ α : Type}

/-- The world after an event. -/
def effect (W : World S σ) (w : σ) : Task.Event S → Option σ
  | .received c => some (W.recv w c)
  | .readFailed _ => some w
  | .sent c => some (W.send w c)
  | .writeFailed _ => some w
  | .elapsed _ => some w
  | .answered op r => W.await op r w
  | .returned c r => W.call c r w

/-- One event of a task in its world. -/
def step [DecidableEq S.Op] [DecidableEq S.Call] (W : World S σ) (s : Task S α × σ)
    (e : Task.Event S) : Option (Task S α × σ) :=
  (s.1.step e).bind fun p => (W.effect s.2 e).map fun w => (p, w)

end World

namespace Task

variable {S : Sig} {σ α β ε : Type}

def wp (W : World S σ) (I : Bool → σ → Prop) : Task S α → (α → σ → Prop) → σ → Prop
  | .done a, Q, w => Q a w
  | .read n _ k, Q, w =>
    (∀ c, c = [] ∨ c.length < n → I true (W.recv w c) ∧
      (∀ e, (k (.inl (.error e))).wp W I Q (W.recv w c)) ∧
      ∀ i, (k (.inr i)).wp W I Q (W.recv w c)) ∧
    ∀ c, c.length = n → (k (.inl (.ok c))).wp W I Q (W.recv w c)
  | .write bs _ k, Q, w =>
    (∀ c, c = [] ∨ c <+: bs ∧ c ≠ bs → I true (W.send w c) ∧
      (∀ e, (k (.inl (.error e))).wp W I Q (W.send w c)) ∧
      ∀ i, (k (.inr i)).wp W I Q (W.send w c)) ∧
    (k (.inl (.ok ()))).wp W I Q (W.send w bs)
  | .await op _ k, Q, w => I true w ∧ (∀ i, (k (.inr i)).wp W I Q w) ∧
    ∀ r w', W.await op r w = some w' → (k (.inl r)).wp W I Q w'
  | .call c k, Q, w => I false w ∧ ∀ r w', W.call c r w = some w' → (k r).wp W I Q w'

section Rules

variable {W : World S σ} {I J : Bool → σ → Prop} {Q R : α → σ → Prop} {p : Task S α} {w : σ}

/-! ## Rules -/

theorem wp_mono (hI : ∀ b w, I b w → J b w) (hQ : ∀ a w, Q a w → R a w) (h : p.wp W I Q w) :
    p.wp W J R w := by
  induction p generalizing w with
  | done a => exact hQ a w h
  | read n t k ih =>
    refine ⟨?_, fun c hc => ih _ (h.2 c hc)⟩
    intro c hc
    obtain ⟨hi, he, ht⟩ := h.1 c hc
    exact ⟨hI _ _ hi, fun e => ih _ (he e), fun i => ih _ (ht i)⟩
  | write bs t k ih =>
    refine ⟨?_, ih _ h.2⟩
    intro c hc
    obtain ⟨hi, he, ht⟩ := h.1 c hc
    exact ⟨hI _ _ hi, fun e => ih _ (he e), fun i => ih _ (ht i)⟩
  | await op t k ih =>
    exact ⟨hI _ _ h.1, fun i => ih _ (h.2.1 i), fun r w' hw => ih _ (h.2.2 r w' hw)⟩
  | call c k ih => exact ⟨hI _ _ h.1, fun r w' hw => ih _ (h.2 r w' hw)⟩

theorem wp_post (hQ : ∀ a w, Q a w → R a w) (h : p.wp W I Q w) : p.wp W I R w :=
  wp_mono (fun _ _ hi => hi) hQ h

theorem wp_bind {f : α → Task S β} {Q : β → σ → Prop}
    (h : p.wp W I (fun a w => (f a).wp W I Q w) w) : (p.bind f).wp W I Q w := by
  induction p generalizing w with
  | done a => exact h
  | read n t k ih =>
    refine ⟨?_, fun c hc => ih _ (h.2 c hc)⟩
    intro c hc
    obtain ⟨hi, he, ht⟩ := h.1 c hc
    exact ⟨hi, fun e => ih _ (he e), fun i => ih _ (ht i)⟩
  | write bs t k ih =>
    refine ⟨?_, ih _ h.2⟩
    intro c hc
    obtain ⟨hi, he, ht⟩ := h.1 c hc
    exact ⟨hi, fun e => ih _ (he e), fun i => ih _ (ht i)⟩
  | await op t k ih => exact ⟨h.1, fun i => ih _ (h.2.1 i), fun r w' hw => ih _ (h.2.2 r w' hw)⟩
  | call c k ih => exact ⟨h.1, fun r w' hw => ih _ (h.2 r w' hw)⟩

/-- The timer of one more scope: it can fire wherever the invariant is asked for. -/
theorem wp_timer {ρ : Type} {t : Nat} {k : ρ ⊕ Fin t → Task S α} {Q : Option α → σ → Prop}
    (hk : ∀ r, (k r).wp W (fun b w => I b w ∧ (b = true → Q none w)) (fun a => Q (some a)) w →
      (k r).timeout.wp W I Q w)
    (hn : Q none w)
    (h : ∀ i, (k (.inr i)).wp W (fun b w => I b w ∧ (b = true → Q none w)) (fun a => Q (some a)) w)
    (i : Fin (t + 1)) :
    ((peel (.inr i : ρ ⊕ Fin (t + 1))).elim (.done none) fun r => (k r).timeout).wp W I Q w := by
  unfold peel
  dsimp only
  split
  · exact hk _ (h _)
  · exact hn

/-- **Timeout.** The postcondition for `none` must hold wherever the timer can fire. -/
theorem wp_timeout {Q : Option α → σ → Prop}
    (h : p.wp W (fun b w => I b w ∧ (b = true → Q none w)) (fun a => Q (some a)) w) :
    p.timeout.wp W I Q w := by
  induction p generalizing w with
  | done a => exact h
  | read n t k ih =>
    rw [timeout]
    refine ⟨?_, fun c hc => ih _ (h.2 c hc)⟩
    intro c hc
    obtain ⟨hi, he, ht⟩ := h.1 c hc
    -- the invariant of the inner task carries the case that this timer fires
    exact ⟨hi.1, fun e => ih _ (he e), wp_timer (fun r => ih r) (hi.2 rfl) ht⟩
  | write bs t k ih =>
    rw [timeout]
    refine ⟨?_, ih _ h.2⟩
    intro c hc
    obtain ⟨hi, he, ht⟩ := h.1 c hc
    exact ⟨hi.1, fun e => ih _ (he e), wp_timer (fun r => ih r) (hi.2 rfl) ht⟩
  | await op t k ih =>
    rw [timeout]
    exact ⟨h.1.1, wp_timer (fun r => ih r) (h.1.2 rfl) h.2.1, fun r w' hw => ih _ (h.2.2 r w' hw)⟩
  | call c k ih => exact ⟨h.1.1, fun r w' hw => ih _ (h.2 r w' hw)⟩

/-- A timer that can fire wherever the task waits. -/
theorem wp_limit {Q : Option α → σ → Prop} (hnone : ∀ w, I true w → Q none w)
    (h : p.wp W I (fun a => Q (some a)) w) : p.timeout.wp W I Q w := by
  refine wp_timeout (wp_mono ?_ (fun _ _ hq => hq) h)
  intro b w hi
  refine ⟨hi, ?_⟩
  rintro rfl
  exact hnone w hi

theorem wp_writeAll {bs : Bytes} {Q : Except IoError Unit → σ → Prop}
    (hpart : ∀ c, c <+: bs → c ≠ bs → I true (W.send w c) ∧ ∀ e, Q (.error e) (W.send w c))
    (hall : Q (.ok ()) (W.send w bs)) : (writeAll bs : Task S _).wp W I Q w := by
  unfold writeAll
  split
  · next hnil =>
    subst hnil
    rw [W.send_nil] at hall
    exact hall
  · next hne =>
    refine ⟨?_, hall⟩
    intro c hc
    have hc' : c <+: bs ∧ c ≠ bs := by
      rcases hc with rfl | hc
      · exact ⟨List.nil_prefix, fun h => hne h.symm⟩
      · exact hc
    obtain ⟨hi, he⟩ := hpart c hc'.1 hc'.2
    exact ⟨hi, he, fun i => i.elim0⟩

theorem wp_awaitOp {op : S.Op} {Q : S.Ret op → σ → Prop} (hi : I true w)
    (h : ∀ r w', W.await op r w = some w' → Q r w') : (awaitOp op).wp W I Q w :=
  ⟨hi, fun i => i.elim0, h⟩

theorem wp_callOp {c : S.Call} {Q : S.Res c → σ → Prop} (hi : I false w)
    (h : ∀ r w', W.call c r w = some w' → Q r w') : (callOp c).wp W I Q w := ⟨hi, h⟩

/--
A message reader: it is done after the bytes of a message, or ends with the I/O error after
any part of it.
-/
theorem wp_reader {err : IoError → α} (hp : HandsOn err p) (hI : ∀ c, I true (W.recv w c))
    (hok : ∀ c a, p.feed c = some (.done a) → Q a (W.recv w c))
    (herr : ∀ c e, Q (err e) (W.recv w c)) : p.wp W I Q w := by
  induction p generalizing w with
  | done a =>
    have h := hok [] a rfl
    rwa [W.recv_nil] at h
  | read n t k ih =>
    obtain ⟨hn, ht, he, hk⟩ := hp
    refine ⟨fun c hc => ⟨hI c, fun e => ?_, fun i => ?_⟩, ?_⟩
    · rw [he e]
      exact herr c e
    · exact absurd i.isLt (by omega)
    · intro c hc
      refine ih _ (hk c) ?_ ?_ ?_
      · intro d
        rw [← W.recv_append]
        exact hI _
      · intro d a hd
        rw [← W.recv_append]
        refine hok _ a ?_
        rw [feed_append, feed_read k hc hn]
        exact hd
      · intro d e
        rw [← W.recv_append]
        exact herr _ e
  | write bs t k => exact absurd hp (by simp [HandsOn])
  | await op t k => exact absurd hp (by simp [HandsOn])
  | call c k => exact absurd hp (by simp [HandsOn])

/-! ## Fallible tasks -/

/-- Postcondition of a fallible task, for its result and for its error. -/
def either (Qok : α → σ → Prop) (Qerr : ε → σ → Prop) : Except ε α → σ → Prop
  | .ok a => Qok a
  | .error e => Qerr e

/-- The `?` operator. -/
theorem wp_except_bind {x : ExceptT ε (Task S) α} {f : α → ExceptT ε (Task S) β}
    {Qok : β → σ → Prop} {Qerr : ε → σ → Prop}
    (h : x.run.wp W I (either (fun a w => (f a).run.wp W I (either Qok Qerr) w) Qerr) w) :
    (x >>= f).run.wp W I (either Qok Qerr) w := by
  refine wp_bind (wp_post ?_ h)
  intro r w hr
  cases r with
  | ok a => exact hr
  | error e => exact hr

/-! ## Soundness -/

/-- A read that has got a part of its bytes. -/
theorem wp_received {n t : Nat} {k : Except IoError Bytes ⊕ Fin t → Task S α} {c : Bytes}
    {p' : Task S α} (h : (read n t k).wp W I Q w) (hne : c ≠ []) (hc : c.length ≤ n)
    (hf : (read n t k).feed c = some p') : p'.wp W I Q (W.recv w c) := by
  have hpos : 0 < c.length := List.length_pos_iff.mpr hne
  by_cases hlt : c.length < n
  · -- still reading: a part `d` of the rest is the part `c ++ d` of the whole
    rw [feed_read_of_lt k hlt] at hf
    rw [← Option.some.inj hf]
    refine ⟨?_, ?_⟩
    · intro d hd
      have hcd : (c ++ d).length < n := by
        rw [List.length_append]
        rcases hd with rfl | hd
        · simpa using hlt
        · omega
      obtain ⟨hi, he, ht⟩ := h.1 (c ++ d) (.inr hcd)
      rw [W.recv_append] at hi he ht
      exact ⟨hi, he, ht⟩
    · intro d hd
      rw [← W.recv_append]
      exact h.2 (c ++ d) (by rw [List.length_append]; omega)
  · have hn : c.length = n := by omega
    rw [feed_read k hn (by omega)] at hf
    rw [← Option.some.inj hf]
    exact h.2 c hn

/-- A write of which a part is accepted. -/
theorem wp_sent {bs c : Bytes} {t : Nat} {k : Except IoError Unit ⊕ Fin t → Task S α}
    (h : (write bs t k).wp W I Q w) (hc : c <+: bs) (hbs : c ≠ bs) :
    (write (bs.drop c.length) t k).wp W I Q (W.send w c) := by
  obtain ⟨d, rfl⟩ := hc
  rw [List.drop_left]
  refine ⟨?_, ?_⟩
  · intro x hx
    have hcx : (c ++ x) <+: (c ++ d) ∧ c ++ x ≠ c ++ d := by
      rcases hx with rfl | ⟨hx, hxd⟩
      · exact ⟨by simp, by simpa using hbs⟩
      · exact ⟨(List.prefix_append_right_inj c).mpr hx, fun he => hxd (List.append_cancel_left he)⟩
    obtain ⟨hi, he, ht⟩ := h.1 (c ++ x) (.inr hcx)
    rw [W.send_append] at hi he ht
    exact ⟨hi, he, ht⟩
  · rw [← W.send_append]
    exact h.2

/-- The invariant of the point a task stands at. -/
theorem wp_invariant (h : p.wp W I Q w) : (∃ a, p = .done a ∧ Q a w) ∨ I p.settled w := by
  cases p with
  | done a => exact .inl ⟨a, rfl, h⟩
  | read n t k =>
    have hi := (h.1 [] (.inl rfl)).1
    rw [W.recv_nil] at hi
    exact .inr hi
  | write bs t k =>
    have hi := (h.1 [] (.inl rfl)).1
    rw [W.send_nil] at hi
    exact .inr hi
  | await op t k => exact .inr h.1
  | call c k => exact .inr h.1

variable [DecidableEq S.Op] [DecidableEq S.Call]

/-- **One event keeps the weakest precondition.** -/
theorem wp_step {s' : Task S α × σ} {e : Event S} (h : p.wp W I Q w)
    (hs : W.step (p, w) e = some s') : s'.1.wp W I Q s'.2 := by
  obtain ⟨p', hp, hmap⟩ := Option.bind_eq_some_iff.mp hs
  obtain ⟨w', hw, rfl⟩ := Option.map_eq_some_iff.mp hmap
  clear hs hmap
  dsimp only at hp hw ⊢
  cases p with
  | done a => cases e <;> simp [step] at hp
  | read n t k =>
    obtain ⟨-, he, ht⟩ := h.1 [] (.inl rfl)
    rw [W.recv_nil] at he ht
    cases e <;> simp only [step, reduceCtorEq] at hp <;>
      simp only [World.effect, Option.some.injEq] at hw
    case received c =>
      subst hw
      split at hp
      · next hc => exact wp_received h hc.1 hc.2 hp
      · simp at hp
    case readFailed e =>
      subst hw
      rw [← Option.some.inj hp]
      exact he e
    case elapsed i =>
      subst hw
      split at hp
      · rw [← Option.some.inj hp]
        exact ht _
      · simp at hp
  | write bs t k =>
    obtain ⟨-, he, ht⟩ := h.1 [] (.inl rfl)
    rw [W.send_nil] at he ht
    cases e <;> simp only [step, reduceCtorEq] at hp <;>
      simp only [World.effect, Option.some.injEq] at hw
    case sent c =>
      subst hw
      split at hp
      · next hc =>
        split at hp
        · next hall =>
          subst hall
          rw [← Option.some.inj hp]
          exact h.2
        · next hpart =>
          rw [← Option.some.inj hp]
          exact wp_sent h hc.2 hpart
      · simp at hp
    case writeFailed e =>
      subst hw
      rw [← Option.some.inj hp]
      exact he e
    case elapsed i =>
      subst hw
      split at hp
      · rw [← Option.some.inj hp]
        exact ht _
      · simp at hp
  | await op t k =>
    cases e <;> simp only [step, reduceCtorEq] at hp <;>
      simp only [World.effect, Option.some.injEq] at hw
    case answered op' r =>
      split at hp
      · next hop =>
        subst hop
        rw [← Option.some.inj hp]
        exact h.2.2 r w' hw
      · simp at hp
    case elapsed i =>
      subst hw
      split at hp
      · rw [← Option.some.inj hp]
        exact h.2.1 _
      · simp at hp
  | call c k =>
    cases e <;> simp only [step, reduceCtorEq] at hp
    simp only [World.effect] at hw
    case returned c' r =>
      split at hp
      · next hc =>
        subst hc
        rw [← Option.some.inj hp]
        exact h.2 r w' hw
      · simp at hp

/-- **Soundness.** In every state that a run reaches, the weakest precondition still holds. -/
theorem wp_sound {es : List (Event S)} {s' : Task S α × σ} (h : p.wp W I Q w)
    (hr : run W.step (p, w) es = some s') : s'.1.wp W I Q s'.2 :=
  run_invariant (I := fun s => s.1.wp W I Q s.2) (fun _ _ _ hi he => wp_step hi he) h hr

end Rules

end Task

end Infra
