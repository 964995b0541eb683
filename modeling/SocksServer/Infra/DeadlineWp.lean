import SocksServer.Infra.Deadline
import SocksServer.Infra.Shape

/-!
# Weakest preconditions for tasks with deadlines

`p.wp slack W I Q now w` is `Task.wp` over time and world, for a timed task `p` that stands at
time `now` in the world `w`. `wp_bind` and `wp_within` follow the way a timed task is built, and
`Erases.wp_keeps` brings in what is known of the untimed one. `wp_sound` is what it means for
runs.
-/

namespace Infra.TimedTask

variable {S : Sig} {α β σ : Type}

/--
Whatever the surroundings do with the task, which stands at time `now` in the world `w`: as
long as timers are neither early nor late by more than `slack`, `I` holds of the time and the
world wherever it stands, and `Q` of its end.
-/
def wp (slack : Option Nat) (W : World S σ) (I : Nat → σ → Prop) :
    TimedTask S α → (Nat → α → σ → Prop) → Nat → σ → Prop
  | .done a, Q, now, w => Q now a w
  | .read n _ due k, Q, now, w => ∀ T, now ≤ T → (∀ i, InTime slack (due i) T) →
    (∀ c, c = [] ∨ c.length < n → I T (W.recv w c) ∧
      (∀ e, (k T (.inl (.error e))).wp slack W I Q T (W.recv w c)) ∧
      ∀ i, Due (due i) T → (k T (.inr i)).wp slack W I Q T (W.recv w c)) ∧
    ∀ c, c.length = n → (k T (.inl (.ok c))).wp slack W I Q T (W.recv w c)
  | .write bs _ due k, Q, now, w => ∀ T, now ≤ T → (∀ i, InTime slack (due i) T) →
    (∀ c, c = [] ∨ c <+: bs ∧ c ≠ bs → I T (W.send w c) ∧
      (∀ e, (k T (.inl (.error e))).wp slack W I Q T (W.send w c)) ∧
      ∀ i, Due (due i) T → (k T (.inr i)).wp slack W I Q T (W.send w c)) ∧
    (k T (.inl (.ok ()))).wp slack W I Q T (W.send w bs)
  | .await op _ due k, Q, now, w => ∀ T, now ≤ T → (∀ i, InTime slack (due i) T) →
    I T w ∧ (∀ i, Due (due i) T → (k T (.inr i)).wp slack W I Q T w) ∧
    ∀ r w', W.await op r w = some w' → (k T (.inl r)).wp slack W I Q T w'
  | .call c k, Q, now, w => I now w ∧
    ∀ r w', W.call c r w = some w' → (k now r).wp slack W I Q now w'

section Rules

variable {slack : Option Nat} {W : World S σ} {I J : Nat → σ → Prop} {Q R : Nat → α → σ → Prop}
  {p : TimedTask S α} {now : Nat} {w : σ}

theorem wp_mono (hI : ∀ T w, now ≤ T → I T w → J T w)
    (hQ : ∀ T a w, now ≤ T → Q T a w → R T a w) (h : p.wp slack W I Q now w) :
    p.wp slack W J R now w := by
  induction p generalizing now w with
  | done a => exact hQ now a w (le_refl _) h
  | read n t due k ih =>
    intro T hT hin
    obtain ⟨hpart, hall⟩ := h T hT hin
    -- later times are later than `now` as well
    have hnext : ∀ r w, (k T r).wp slack W I Q T w → (k T r).wp slack W J R T w := fun r w =>
      ih T r (fun T' w hT' => hI T' w (hT.trans hT')) fun T' a w hT' => hQ T' a w (hT.trans hT')
    refine ⟨?_, fun c hc => hnext _ _ (hall c hc)⟩
    intro c hc
    obtain ⟨hi, he, ht⟩ := hpart c hc
    exact ⟨hI T _ hT hi, fun e => hnext _ _ (he e), fun i hdue => hnext _ _ (ht i hdue)⟩
  | write bs t due k ih =>
    intro T hT hin
    obtain ⟨hpart, hall⟩ := h T hT hin
    have hnext : ∀ r w, (k T r).wp slack W I Q T w → (k T r).wp slack W J R T w := fun r w =>
      ih T r (fun T' w hT' => hI T' w (hT.trans hT')) fun T' a w hT' => hQ T' a w (hT.trans hT')
    refine ⟨?_, hnext _ _ hall⟩
    intro c hc
    obtain ⟨hi, he, ht⟩ := hpart c hc
    exact ⟨hI T _ hT hi, fun e => hnext _ _ (he e), fun i hdue => hnext _ _ (ht i hdue)⟩
  | await op t due k ih =>
    intro T hT hin
    obtain ⟨hi, ht, hr⟩ := h T hT hin
    have hnext : ∀ r w, (k T r).wp slack W I Q T w → (k T r).wp slack W J R T w := fun r w =>
      ih T r (fun T' w hT' => hI T' w (hT.trans hT')) fun T' a w hT' => hQ T' a w (hT.trans hT')
    exact ⟨hI T _ hT hi, fun i hdue => hnext _ _ (ht i hdue),
      fun r w' hw => hnext _ _ (hr r w' hw)⟩
  | call c k ih =>
    exact ⟨hI now _ (le_refl _) h.1, fun r w' hw => ih now r hI hQ (h.2 r w' hw)⟩

theorem wp_bind {f : α → Nat → TimedTask S β} {Q : Nat → β → σ → Prop}
    (h : p.wp slack W I (fun T a w => (f a T).wp slack W I Q T w) now w) :
    (p.bind now f).wp slack W I Q now w := by
  induction p generalizing now w with
  | done a => exact h
  | read n t due k ih =>
    intro T hT hin
    obtain ⟨hpart, hall⟩ := h T hT hin
    refine ⟨?_, fun c hc => ih _ _ (hall c hc)⟩
    intro c hc
    obtain ⟨hi, he, ht⟩ := hpart c hc
    exact ⟨hi, fun e => ih _ _ (he e), fun i hdue => ih _ _ (ht i hdue)⟩
  | write bs t due k ih =>
    intro T hT hin
    obtain ⟨hpart, hall⟩ := h T hT hin
    refine ⟨?_, ih _ _ hall⟩
    intro c hc
    obtain ⟨hi, he, ht⟩ := hpart c hc
    exact ⟨hi, fun e => ih _ _ (he e), fun i hdue => ih _ _ (ht i hdue)⟩
  | await op t due k ih =>
    intro T hT hin
    obtain ⟨hi, ht, hr⟩ := h T hT hin
    exact ⟨hi, fun i hdue => ih _ _ (ht i hdue), fun r w' hw => ih _ _ (hr r w' hw)⟩
  | call c k ih => exact ⟨h.1, fun r w' hw => ih _ _ (h.2 r w' hw)⟩

/-- The timer of one more scope: it fires when its deadline has come. -/
theorem wp_timer {ρ : Type} {t T : Nat} {k : ρ ⊕ Fin t → TimedTask S α} {due : Fin t → Option Nat}
    {deadline : Option Nat} {Q : Nat → Option α → σ → Prop}
    (hn : Due deadline T → Q T none w)
    (hk : ∀ i, Due (due i) T → ((k (.inr i)).within deadline).wp slack W I Q T w) (i : Fin (t + 1))
    (hdue : Due (addDue due deadline i) T) :
    ((Task.peel (.inr i : ρ ⊕ Fin (t + 1))).elim (.done none) fun r =>
      (k r).within deadline).wp slack W I Q T w := by
  unfold addDue at hdue
  unfold Task.peel
  dsimp only
  by_cases hi : i.val < t
  · rw [dif_pos hi] at hdue ⊢
    exact hk _ hdue
  · rw [dif_neg hi] at hdue ⊢
    exact hn hdue

/-- Who is in time for one more deadline is in time for that one and for the others. -/
theorem inTime_addDue {t T : Nat} {due : Fin t → Option Nat} {deadline : Option Nat}
    (h : ∀ i, InTime slack (addDue due deadline i) T) :
    (∀ i, InTime slack (due i) T) ∧ InTime slack deadline T := by
  refine ⟨?_, ?_⟩
  · intro i
    have hi := h ⟨i.val, by omega⟩
    rwa [addDue, dif_pos i.isLt] at hi
  · have hi := h ⟨t, by omega⟩
    rwa [addDue, dif_neg (by simp)] at hi

/--
**A scope with a deadline.** Whatever happens inside of it happens in time, and its timer fires
when the deadline has come, wherever the task stands.
-/
theorem wp_within {deadline : Option Nat} {Q : Nat → Option α → σ → Prop}
    (hnow : InTime slack deadline now)
    (h : p.wp slack W
      (fun T w => InTime slack deadline T → I T w ∧ (Due deadline T → Q T none w))
      (fun T a w => InTime slack deadline T → Q T (some a) w) now w) :
    (p.within deadline).wp slack W I Q now w := by
  induction p generalizing now w with
  | done a => exact h hnow
  | read n t due k ih =>
    intro T hT hin
    obtain ⟨hin, hd⟩ := inTime_addDue hin
    obtain ⟨hpart, hall⟩ := h T hT hin
    refine ⟨?_, fun c hc => ih T _ hd (hall c hc)⟩
    intro c hc
    obtain ⟨hi, he, ht⟩ := hpart c hc
    exact ⟨(hi hd).1, fun e => ih T _ hd (he e),
      wp_timer (hi hd).2 fun i hdue => ih T _ hd (ht i hdue)⟩
  | write bs t due k ih =>
    intro T hT hin
    obtain ⟨hin, hd⟩ := inTime_addDue hin
    obtain ⟨hpart, hall⟩ := h T hT hin
    refine ⟨?_, ih T _ hd hall⟩
    intro c hc
    obtain ⟨hi, he, ht⟩ := hpart c hc
    exact ⟨(hi hd).1, fun e => ih T _ hd (he e),
      wp_timer (hi hd).2 fun i hdue => ih T _ hd (ht i hdue)⟩
  | await op t due k ih =>
    intro T hT hin
    obtain ⟨hin, hd⟩ := inTime_addDue hin
    obtain ⟨hi, ht, hr⟩ := h T hT hin
    exact ⟨(hi hd).1, wp_timer (hi hd).2 fun i hdue => ih T _ hd (ht i hdue),
      fun r w' hw => ih T _ hd (hr r w' hw)⟩
  | call c k ih =>
    exact ⟨(h.1 hnow).1, fun r w' hw => ih now r hnow (h.2 r w' hw)⟩

/-! ## Erasure

What is known of the calls and the results of the untimed task holds of the timed one.
-/

section Erasure

variable {O : S.Op → Prop} {C : S.Call → Prop} {R : α → Prop} {P : σ → Prop} {q : Task S α}

theorem Erases.wp_keeps (he : p.Erases q) (h : q.All O C R) (hP : Task.Keeps W O C P) (hw : P w) :
    p.wp slack W (fun _ => P) (fun _ a w => R a ∧ P w) now w := by
  induction p generalizing now w q with
  | done a =>
    obtain rfl : q = .done a := he
    exact ⟨h, hw⟩
  | read n t due k ih =>
    obtain ⟨k', rfl, hk⟩ := he
    intro T _ _
    have hw' : ∀ c, P (W.recv w c) := fun c => hP.recv w c hw
    exact ⟨fun c _ => ⟨hw' c, fun e => ih T _ (hk T _) (h _) (hw' c),
      fun i _ => ih T _ (hk T _) (h _) (hw' c)⟩, fun c _ => ih T _ (hk T _) (h _) (hw' c)⟩
  | write bs t due k ih =>
    obtain ⟨k', rfl, hk⟩ := he
    intro T _ _
    have hw' : ∀ c, P (W.send w c) := fun c => hP.send w c hw
    exact ⟨fun c _ => ⟨hw' c, fun e => ih T _ (hk T _) (h _) (hw' c),
      fun i _ => ih T _ (hk T _) (h _) (hw' c)⟩, ih T _ (hk T _) (h _) (hw' bs)⟩
  | await op t due k ih =>
    obtain ⟨k', rfl, hk⟩ := he
    intro T _ _
    exact ⟨hw, fun i _ => ih T _ (hk T _) (h.2 _) hw,
      fun r w' hr => ih T _ (hk T _) (h.2 _) (hP.await op r w w' h.1 hw hr)⟩
  | call c k ih =>
    obtain ⟨k', rfl, hk⟩ := he
    exact ⟨hw, fun r w' hr => ih now _ (hk now _) (h.2 _) (hP.call c r w w' h.1 hw hr)⟩

/-- **A phase with a limit**, of which only a property of the world and its result matter. -/
theorem Erases.wp_limit {limit : Nat} {Q : Nat → Option α → σ → Prop} (he : p.Erases q)
    (h : q.All O C R) (hP : Task.Keeps W O C P) (hw : P w)
    (hI : ∀ T w, InTime slack (some (now + limit)) T → P w → I T w)
    (hnone : ∀ T w, now + limit ≤ T → InTime slack (some (now + limit)) T → P w → Q T none w)
    (hsome : ∀ T a w, now ≤ T → InTime slack (some (now + limit)) T → R a → P w →
      Q T (some a) w) :
    (p.within (some (now + limit))).wp slack W I Q now w := by
  refine wp_within ?_ (wp_mono ?_ ?_ (he.wp_keeps h hP hw))
  · intro δ d _ hd
    rw [← Option.some.inj hd]
    omega
  · intro T w _ hw hin
    exact ⟨hI T w hin hw, fun hdue => hnone T w (hdue _ rfl) hin hw⟩
  · intro T a w hT hw hin
    exact hsome T a w hT hin hw.1 hw.2

end Erasure

/-- A call is made at once. -/
theorem wp_lift_callOp {c : S.Call} {Q : Nat → S.Res c → σ → Prop} (hi : I now w)
    (h : ∀ r w', W.call c r w = some w' → Q now r w') :
    (lift (Task.callOp c)).wp slack W I Q now w := ⟨hi, h⟩

/-! ## Soundness -/

/-- While a task stands where it is. -/
theorem wp_invariant {T : Nat} (h : p.wp slack W I Q now w) (hT : now ≤ T)
    (hstand : p.MayStand slack now T) : (∃ a, p = .done a ∧ Q now a w) ∨ I T w := by
  cases p with
  | done a => exact .inl ⟨a, rfl, h⟩
  | read n t due k =>
    have hi := ((h T hT hstand).1 [] (.inl rfl)).1
    rw [W.recv_nil] at hi
    exact .inr hi
  | write bs t due k =>
    have hi := ((h T hT hstand).1 [] (.inl rfl)).1
    rw [W.send_nil] at hi
    exact .inr hi
  | await op t due k => exact .inr (h T hT hstand).1
  | call c k =>
    obtain rfl : T = now := hstand
    exact .inr h.1

/-- A read that has got a part of its bytes. -/
theorem wp_received {n t T : Nat} {due : Fin t → Option Nat}
    {k : Nat → Except IoError Bytes ⊕ Fin t → TimedTask S α} {c : Bytes}
    (h : (read n t due k).wp slack W I Q now w) (hT : now ≤ T) (hc : c.length < n) :
    (read (n - c.length) t due fun now r => k now (Task.prepend c r)).wp slack W I Q T
      (W.recv w c) := by
  intro T' hT' hin
  obtain ⟨hpart, hall⟩ := h T' (hT.trans hT') hin
  refine ⟨?_, ?_⟩
  · intro d hd
    have hcd : (c ++ d).length < n := by
      rw [List.length_append]
      rcases hd with rfl | hd
      · simpa using hc
      · omega
    obtain ⟨hi, he, ht⟩ := hpart (c ++ d) (.inr hcd)
    rw [W.recv_append] at hi he ht
    exact ⟨hi, he, ht⟩
  · intro d hd
    rw [← W.recv_append]
    exact hall (c ++ d) (by rw [List.length_append]; omega)

/-- A write of which a part is accepted. -/
theorem wp_sent {bs c : Bytes} {t T : Nat} {due : Fin t → Option Nat}
    {k : Nat → Except IoError Unit ⊕ Fin t → TimedTask S α}
    (h : (write bs t due k).wp slack W I Q now w) (hT : now ≤ T) (hc : c <+: bs) (hbs : c ≠ bs) :
    (write (bs.drop c.length) t due k).wp slack W I Q T (W.send w c) := by
  obtain ⟨d, rfl⟩ := hc
  rw [List.drop_left]
  intro T' hT' hin
  obtain ⟨hpart, hall⟩ := h T' (hT.trans hT') hin
  refine ⟨?_, ?_⟩
  · intro x hx
    have hcx : (c ++ x) <+: (c ++ d) ∧ c ++ x ≠ c ++ d := by
      rcases hx with rfl | ⟨hx, hxd⟩
      · exact ⟨by simp, by simpa using hbs⟩
      · exact ⟨(List.prefix_append_right_inj c).mpr hx, fun he => hxd (List.append_cancel_left he)⟩
    obtain ⟨hi, he, ht⟩ := hpart (c ++ x) (.inr hcx)
    rw [W.send_append] at hi he ht
    exact ⟨hi, he, ht⟩
  · rw [← W.send_append]
    exact hall

variable [DecidableEq S.Op] [DecidableEq S.Call]

/-- **One event keeps the weakest precondition.** -/
theorem wp_step {T : Nat} {e : Task.Event S} {p' : TimedTask S α} {w' : σ}
    (h : p.wp slack W I Q now w) (hT : now ≤ T) (hstand : p.MayStand slack now T)
    (hp : p.step T e = some p') (hw : W.effect w e = some w') :
    p'.wp slack W I Q T w' := by
  cases p with
  | done a => cases e <;> simp [step] at hp
  | read n t due k =>
    obtain ⟨hpart, hall⟩ := h T hT hstand
    obtain ⟨-, he, ht⟩ := hpart [] (.inl rfl)
    rw [W.recv_nil] at he ht
    cases e <;> simp only [step, reduceCtorEq] at hp <;>
      simp only [World.effect, Option.some.injEq] at hw
    case received c =>
      subst hw
      by_cases hc : c ≠ [] ∧ c.length ≤ n
      · rw [if_pos hc] at hp
        by_cases hn : c.length = n
        · rw [if_pos hn] at hp
          rw [← Option.some.inj hp]
          exact hall c hn
        · rw [if_neg hn] at hp
          rw [← Option.some.inj hp]
          exact wp_received h hT (by omega)
      · rw [if_neg hc] at hp
        simp at hp
    case readFailed e =>
      subst hw
      rw [← Option.some.inj hp]
      exact he e
    case elapsed i =>
      subst hw
      obtain ⟨hi, hdue, rfl⟩ := fire_eq_some.mp hp
      exact ht _ hdue
  | write bs t due k =>
    obtain ⟨hpart, hall⟩ := h T hT hstand
    obtain ⟨-, he, ht⟩ := hpart [] (.inl rfl)
    rw [W.send_nil] at he ht
    cases e <;> simp only [step, reduceCtorEq] at hp <;>
      simp only [World.effect, Option.some.injEq] at hw
    case sent c =>
      subst hw
      by_cases hc : c ≠ [] ∧ c <+: bs
      · rw [if_pos hc] at hp
        by_cases hbs : c = bs
        · subst hbs
          rw [if_pos rfl] at hp
          rw [← Option.some.inj hp]
          exact hall
        · rw [if_neg hbs] at hp
          rw [← Option.some.inj hp]
          exact wp_sent h hT hc.2 hbs
      · rw [if_neg hc] at hp
        simp at hp
    case writeFailed e =>
      subst hw
      rw [← Option.some.inj hp]
      exact he e
    case elapsed i =>
      subst hw
      obtain ⟨hi, hdue, rfl⟩ := fire_eq_some.mp hp
      exact ht _ hdue
  | await op t due k =>
    obtain ⟨-, ht, hr⟩ := h T hT hstand
    cases e <;> simp only [step, reduceCtorEq] at hp <;>
      simp only [World.effect, Option.some.injEq] at hw
    case answered op' r =>
      split at hp
      · next hop =>
        subst hop
        rw [← Option.some.inj hp]
        exact hr r w' hw
      · simp at hp
    case elapsed i =>
      subst hw
      obtain ⟨hi, hdue, rfl⟩ := fire_eq_some.mp hp
      exact ht _ hdue
  | call c k =>
    obtain rfl : T = now := hstand
    cases e <;> simp only [step, reduceCtorEq] at hp
    simp only [World.effect] at hw
    case returned c' r =>
      split at hp
      · next hc =>
        subst hc
        rw [← Option.some.inj hp]
        exact h.2 r w' hw
      · simp at hp

/-- **Soundness.** In every state that a timed run reaches. -/
theorem wp_sound {es : List (Nat × Task.Event S)} {s s' : State S α σ}
    (h : s.task.wp slack W I Q s.last s.world) (hr : run (State.step slack W) s es = some s') :
    s'.task.wp slack W I Q s'.last s'.world := by
  refine run_invariant (I := fun s => s.task.wp slack W I Q s.last s.world) ?_ h hr
  intro s e s' hs he
  unfold State.step at he
  split at he
  · next hguard =>
    obtain ⟨task, htask, hmap⟩ := Option.bind_eq_some_iff.mp he
    obtain ⟨world, hworld, rfl⟩ := Option.map_eq_some_iff.mp hmap
    exact wp_step hs hguard.1 hguard.2 htask hworld
  · simp at he

end Rules

end Infra.TimedTask
