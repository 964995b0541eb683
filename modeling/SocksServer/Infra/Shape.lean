import SocksServer.Infra.Wp

/-!
# What a task can ask for and return

`p.All O C R` says: whatever the surroundings answer, every future that the task `p` awaits
satisfies `O`, every call it makes satisfies `C`, and `R` holds of its result. Nothing is said
about when it happens, so no world is needed; `wp` is for what depends on one.

* `goes_of_step` : where an event can take a task
* `All.bind`, `All.timeout`, `All.except_bind` : one rule for each way to build a task
* `All.step` : an event keeps it
* `All.keeps` : what all its futures and calls keep of a world holds at its end
* `Untimed R` : unless a timer fires, the result is in `R`
* `Guarded C` : nothing is awaited before a call in `C`
* `Guarded.step` : an event keeps it, or is such a call
* `Scoped R a` : the outermost timer ends the task with `a`, and nothing else does
* `Scoped.step` : an event keeps it, or is that timer
-/

namespace Infra.Task

variable {S : Sig} {α β ε : Type}

/-! ## Steps -/

/-- A timer is left by its own event. -/
def OwnTimer {ρ : Type} {t : Nat} (e : Event S) (r : ρ ⊕ Fin t) : Prop :=
  ∀ i, r = .inr i → e = .elapsed i.val

theorem ownTimer_inl {ρ : Type} {t : Nat} {e : Event S} (r : ρ) :
    OwnTimer e (.inl r : ρ ⊕ Fin t) := by
  rintro i ⟨⟩

theorem ownTimer_inr {ρ : Type} {t : Nat} (i : Fin t) :
    OwnTimer (.elapsed i.val : Event S) (.inr i : ρ ⊕ Fin t) := by
  rintro j ⟨⟩
  rfl

/-- Where an event can take a task. -/
inductive Goes : Task S α → Event S → Task S α → Prop
  | fed {p q : Task S α} {c : Bytes} : p.feed c = some q → Goes p (.received c) q
  | read {n t : Nat} {k : Except IoError Bytes ⊕ Fin t → Task S α} {e : Event S}
    (r : Except IoError Bytes ⊕ Fin t) : OwnTimer e r → Goes (.read n t k) e (k r)
  | write {bs : Bytes} {t : Nat} {k : Except IoError Unit ⊕ Fin t → Task S α} {e : Event S}
    (r : Except IoError Unit ⊕ Fin t) : OwnTimer e r → Goes (.write bs t k) e (k r)
  | sent {bs : Bytes} {t : Nat} {k : Except IoError Unit ⊕ Fin t → Task S α} {e : Event S}
    (rest : Bytes) : Goes (.write bs t k) e (.write rest t k)
  | await {op : S.Op} {t : Nat} {k : S.Ret op ⊕ Fin t → Task S α} {e : Event S}
    (r : S.Ret op ⊕ Fin t) : OwnTimer e r → Goes (.await op t k) e (k r)
  | call {c : S.Call} {k : S.Res c → Task S α} (r : S.Res c) :
    Goes (.call c k) (.returned c r) (k r)

/-- A step goes on with one of the continuations. -/
theorem goes_of_step [DecidableEq S.Op] [DecidableEq S.Call] {p q : Task S α} {e : Event S}
    (h : p.step e = some q) : Goes p e q := by
  cases p with
  | done a => cases e <;> simp [step] at h
  | read n t k =>
    cases e <;> simp only [step, reduceCtorEq] at h
    case received c => exact .fed (step_received (p := .read n t k) h)
    case readFailed e =>
      rw [← Option.some.inj h]
      exact .read _ (ownTimer_inl _)
    case elapsed i =>
      split at h
      · next hi =>
        rw [← Option.some.inj h]
        exact .read _ (ownTimer_inr ⟨i, hi⟩)
      · cases h
  | write bs t k =>
    cases e <;> simp only [step, reduceCtorEq] at h
    case sent c =>
      split at h
      · split at h
        · rw [← Option.some.inj h]
          exact .write _ (ownTimer_inl _)
        · rw [← Option.some.inj h]
          exact .sent _
      · cases h
    case writeFailed e =>
      rw [← Option.some.inj h]
      exact .write _ (ownTimer_inl _)
    case elapsed i =>
      split at h
      · next hi =>
        rw [← Option.some.inj h]
        exact .write _ (ownTimer_inr ⟨i, hi⟩)
      · cases h
  | await op t k =>
    cases e <;> simp only [step, reduceCtorEq] at h
    case answered op' r =>
      split at h
      · rw [← Option.some.inj h]
        exact .await _ (ownTimer_inl _)
      · cases h
    case elapsed i =>
      split at h
      · next hi =>
        rw [← Option.some.inj h]
        exact .await _ (ownTimer_inr ⟨i, hi⟩)
      · cases h
  | call c k =>
    cases e <;> simp only [step, reduceCtorEq] at h
    case returned c' r =>
      split at h
      · next hc =>
        subst hc
        rw [← Option.some.inj h]
        exact .call r
      · cases h

/-- What a read keeps, whole or in part, is kept by the bytes of a stream. -/
theorem feed_keeps_of {P : Task S α → Prop} {p q : Task S α} {c : Bytes}
    (hread : ∀ n t k bs, P (.read n t k) → P (k (.inl (.ok bs))))
    (hpart : ∀ n m t k c, P (.read n t k) → P (.read m t fun r => k (prepend c r)))
    (h : P p) (hq : p.feed c = some q) : P q := by
  induction c generalizing p with
  | nil =>
    rw [feed_nil] at hq
    rw [← Option.some.inj hq]
    exact h
  | cons b c ih =>
    obtain ⟨r, hr, hrest⟩ := Option.bind_eq_some_iff.mp hq
    refine ih ?_ hrest
    cases p <;> simp only [recv, reduceCtorEq] at hr
    case read n t k =>
      split at hr
      · cases hr
      · split at hr
        · rw [← Option.some.inj hr]
          exact hread n t k _ h
        · rw [← Option.some.inj hr]
          exact hpart n _ t k _ h

/-- The same for what is kept whatever a read gets. -/
theorem feed_keeps {P : Task S α → Prop} {p q : Task S α} {c : Bytes}
    (hP : ∀ n t k, P (.read n t k) ↔ ∀ r, P (k r)) (h : P p) (hq : p.feed c = some q) : P q :=
  feed_keeps_of (fun n t k _ h => (hP n t k).mp h _)
    (fun n m t k _ h => (hP m t _).mpr fun _ => (hP n t k).mp h _) h hq

/-! ## Futures, calls and results -/

def All (O : S.Op → Prop) (C : S.Call → Prop) (R : α → Prop) : Task S α → Prop
  | .done a => R a
  | .read _ _ k => ∀ r, (k r).All O C R
  | .write _ _ k => ∀ r, (k r).All O C R
  | .await op _ k => O op ∧ ∀ r, (k r).All O C R
  | .call c k => C c ∧ ∀ r, (k r).All O C R

section Rules

variable {O O' : S.Op → Prop} {C C' : S.Call → Prop} {R R' : α → Prop} {p : Task S α}

theorem All.mono (hO : ∀ op, O op → O' op) (hC : ∀ c, C c → C' c) (hR : ∀ a, R a → R' a)
    (h : p.All O C R) : p.All O' C' R' := by
  induction p with
  | done a => exact hR a h
  | read n t k ih => exact fun r => ih r (h r)
  | write bs t k ih => exact fun r => ih r (h r)
  | await op t k ih => exact ⟨hO op h.1, fun r => ih r (h.2 r)⟩
  | call c k ih => exact ⟨hC c h.1, fun r => ih r (h.2 r)⟩

theorem All.post (hR : ∀ a, R a → R' a) (h : p.All O C R) : p.All O C R' :=
  h.mono (fun _ h => h) (fun _ h => h) hR

theorem All.bind {f : α → Task S β} {R : β → Prop} (h : p.All O C fun a => (f a).All O C R) :
    (p.bind f).All O C R := by
  induction p with
  | done a => exact h
  | read n t k ih => exact fun r => ih r (h r)
  | write bs t k ih => exact fun r => ih r (h r)
  | await op t k ih => exact ⟨h.1, fun r => ih r (h.2 r)⟩
  | call c k ih => exact ⟨h.1, fun r => ih r (h.2 r)⟩

/-- Either the timer of the scope fires or the task goes on below it. -/
theorem all_peel {ρ : Type} {t : Nat} {k : ρ ⊕ Fin t → Task S (Option α)} {R : Option α → Prop}
    (hn : R none) (h : ∀ r, (k r).All O C R) (r : ρ ⊕ Fin (t + 1)) :
    ((peel r).elim (.done none) k).All O C R := by
  cases peel r with
  | none => exact hn
  | some r => exact h r

theorem All.timeout {R : Option α → Prop} (hn : R none) (h : p.All O C fun a => R (some a)) :
    p.timeout.All O C R := by
  induction p with
  | done a => exact h
  | read n t k ih => exact all_peel hn fun r => ih r (h r)
  | write bs t k ih => exact all_peel hn fun r => ih r (h r)
  | await op t k ih => exact ⟨h.1, all_peel hn fun r => ih r (h.2 r)⟩
  | call c k ih => exact ⟨h.1, fun r => ih r (h.2 r)⟩

theorem all_writeAll {bs : Bytes} {R : Except IoError Unit → Prop} (h : ∀ r, R r) :
    (writeAll bs : Task S _).All O C R := by
  unfold writeAll
  split
  · exact h _
  · exact fun r => h _

theorem all_readExact {n : Nat} {R : Except IoError Bytes → Prop} (h : ∀ r, R r) :
    (readExact n : Task S _).All O C R := by
  unfold readExact
  split
  · exact h _
  · exact fun r => h _

theorem all_awaitOp {op : S.Op} {R : S.Ret op → Prop} (hop : O op) (h : ∀ r, R r) :
    (awaitOp op).All O C R := ⟨hop, fun _ => h _⟩

theorem all_callOp {c : S.Call} {R : S.Res c → Prop} (hc : C c) (h : ∀ r, R r) :
    (callOp c).All O C R := ⟨hc, h⟩

/-- The `?` operator: what holds of the error holds of the whole. -/
theorem All.except_bind {x : ExceptT ε (Task S) α} {f : α → ExceptT ε (Task S) β}
    {R : Except ε β → Prop}
    (h : x.run.All O C fun
      | .ok a => (f a).run.All O C R
      | .error e => R (.error e)) : (x >>= f).run.All O C R := by
  refine All.bind (All.post ?_ h)
  intro r hr
  cases r with
  | ok a => exact hr
  | error e => exact hr

theorem All.feed {q : Task S α} {c : Bytes} (h : p.All O C R) (hq : p.feed c = some q) :
    q.All O C R := feed_keeps (P := All O C R) (fun _ _ _ => Iff.rfl) h hq

section Step

variable [DecidableEq S.Op] [DecidableEq S.Call]

/-- **One event keeps the shape of a task.** -/
theorem All.step {q : Task S α} {e : Event S} (h : p.All O C R) (hq : p.step e = some q) :
    q.All O C R := by
  cases goes_of_step hq with
  | fed hfeed => exact h.feed hfeed
  | read r _ => exact h r
  | write r _ => exact h r
  | sent rest => exact h
  | await r _ => exact h.2 r
  | call r => exact h.2 r

end Step

/-- The result of a task none of whose timers fires is in `R`. -/
def Untimed (R : α → Prop) : Task S α → Prop
  | .done a => R a
  | .read _ _ k => ∀ r, (k (.inl r)).Untimed R
  | .write _ _ k => ∀ r, (k (.inl r)).Untimed R
  | .await _ _ k => ∀ r, (k (.inl r)).Untimed R
  | .call _ k => ∀ r, (k r).Untimed R

theorem Untimed.bind {f : α → Task S β} {R : β → Prop}
    (h : p.Untimed fun a => (f a).Untimed R) : (p.bind f).Untimed R := by
  induction p with
  | done a => exact h
  | read n t k ih => exact fun r => ih _ (h r)
  | write bs t k ih => exact fun r => ih _ (h r)
  | await op t k ih => exact fun r => ih _ (h r)
  | call c k ih => exact fun r => ih r (h r)

/-- The timer of a timeout is one of those that do not fire. -/
theorem Untimed.timeout {R : Option α → Prop} (h : p.Untimed fun a => R (some a)) :
    p.timeout.Untimed R := by
  induction p with
  | done a => exact h
  | read n t k ih => exact fun r => ih _ (h r)
  | write bs t k ih => exact fun r => ih _ (h r)
  | await op t k ih => exact fun r => ih _ (h r)
  | call c k ih => exact fun r => ih r (h r)

theorem Untimed.feed {q : Task S α} {c : Bytes} (h : p.Untimed R) (hq : p.feed c = some q) :
    q.Untimed R := by
  refine feed_keeps_of (P := Untimed R) (fun _ _ _ _ h => h _) ?_ h hq
  intro n m t k c h r
  cases r with
  | ok bs => exact h _
  | error e => exact h _

section Step

variable [DecidableEq S.Op] [DecidableEq S.Call]

/-- A step that is no timer changes nothing about the rest. -/
theorem Untimed.step {q : Task S α} {e : Event S} (h : p.Untimed R) (hq : p.step e = some q)
    (he : ∀ i, e ≠ .elapsed i) : q.Untimed R := by
  cases goes_of_step hq with
  | fed hfeed => exact h.feed hfeed
  | read r hown =>
    cases r with
    | inl r => exact h r
    | inr i => exact absurd (hown i rfl) (he i)
  | write r hown =>
    cases r with
    | inl r => exact h r
    | inr i => exact absurd (hown i rfl) (he i)
  | sent rest => exact h
  | await r hown =>
    cases r with
    | inl r => exact h r
    | inr i => exact absurd (hown i rfl) (he i)
  | call r => exact h r

/-- **A run without timers** ends as the task without its timers. -/
theorem Untimed.run {σ : Type} {W : World S σ} {w w' : σ} {q : Task S α} {es : List (Event S)}
    (h : p.Untimed R) (hrun : Infra.run W.step (p, w) es = some (q, w'))
    (hes : ∀ i, .elapsed i ∉ es) : q.Untimed R := by
  induction es generalizing p w with
  | nil =>
    obtain ⟨rfl, -⟩ := Prod.mk.inj (Option.some.inj hrun)
    exact h
  | cons e es ih =>
    obtain ⟨⟨p', w''⟩, hstep, hrest⟩ := run_cons hrun
    obtain ⟨r, hr, hmap⟩ := Option.bind_eq_some_iff.mp hstep
    obtain ⟨w₁, -, heq⟩ := Option.map_eq_some_iff.mp hmap
    obtain ⟨rfl, -⟩ := Prod.mk.inj heq
    refine ih (h.step hr ?_) hrest fun i hi => hes i (List.mem_cons_of_mem _ hi)
    rintro i rfl
    exact hes i List.mem_cons_self

end Step

/-- A property of the world that these futures and calls keep. -/
structure Keeps {σ : Type} (W : World S σ) (O : S.Op → Prop) (C : S.Call → Prop) (P : σ → Prop) :
    Prop where
  recv : ∀ w c, P w → P (W.recv w c)
  send : ∀ w c, P w → P (W.send w c)
  await : ∀ op r w w', O op → P w → W.await op r w = some w' → P w'
  call : ∀ c r w w', C c → P w → W.call c r w = some w' → P w'

/-- **What all steps keep holds at the end.** -/
theorem All.keeps {σ : Type} {W : World S σ} {I : Bool → σ → Prop} {P : σ → Prop} {w : σ}
    (h : p.All O C R) (hP : Keeps W O C P) (hw : P w) (hI : ∀ settled w, P w → I settled w) :
    p.wp W I (fun a w => R a ∧ P w) w := by
  induction p generalizing w with
  | done a => exact ⟨h, hw⟩
  | read n t k ih =>
    have hw' : ∀ c, P (W.recv w c) := fun c => hP.recv w c hw
    exact ⟨fun c _ => ⟨hI true _ (hw' c), fun _ => ih _ (h _) (hw' c), fun _ => ih _ (h _) (hw' c)⟩,
      fun c _ => ih _ (h _) (hw' c)⟩
  | write bs t k ih =>
    have hw' : ∀ c, P (W.send w c) := fun c => hP.send w c hw
    exact ⟨fun c _ => ⟨hI true _ (hw' c), fun _ => ih _ (h _) (hw' c), fun _ => ih _ (h _) (hw' c)⟩,
      ih _ (h _) (hw' bs)⟩
  | await op t k ih =>
    exact ⟨hI true w hw, fun _ => ih _ (h.2 _) hw,
      fun r w' hr => ih _ (h.2 _) (hP.await op r w w' h.1 hw hr)⟩
  | call c k ih =>
    exact ⟨hI false w hw, fun r w' hr => ih _ (h.2 _) (hP.call c r w w' h.1 hw hr)⟩

/-- **A world that is left alone.** -/
theorem All.wp {σ : Type} {W : World S σ} {I : Bool → σ → Prop} {w : σ} (h : p.All O C R)
    (hI : ∀ settled, I settled w) (hrecv : ∀ c, W.recv w c = w) (hsend : ∀ c, W.send w c = w)
    (hawait : ∀ op r w', O op → W.await op r w = some w' → w' = w)
    (hcall : ∀ c r w', C c → W.call c r w = some w' → w' = w) :
    p.wp W I (fun a w' => R a ∧ w' = w) w := by
  refine h.keeps (P := (· = w)) ⟨?_, ?_, ?_, ?_⟩ rfl ?_
  · rintro _ c rfl
    exact hrecv c
  · rintro _ c rfl
    exact hsend c
  · rintro op r _ w' hop rfl
    exact hawait op r w' hop
  · rintro c r _ w' hc rfl
    exact hcall c r w' hc
  · rintro settled _ rfl
    exact hI settled

end Rules

/-! ## Nothing before a call -/

/-- No future is awaited before a call in `C` has returned. -/
def Guarded (C : S.Call → Prop) : Task S α → Prop
  | .done _ => True
  | .read _ _ k => ∀ r, (k r).Guarded C
  | .write _ _ k => ∀ r, (k r).Guarded C
  | .await _ _ _ => False
  | .call c k => C c ∨ ∀ r, (k r).Guarded C

section Guarded

variable {C : S.Call → Prop} {p : Task S α}

/-- A task that awaits nothing at all. -/
theorem All.guarded {C' : S.Call → Prop} {R : α → Prop} (h : p.All (fun _ => False) C' R) :
    p.Guarded C := by
  induction p with
  | done a => trivial
  | read n t k ih => exact fun r => ih r (h r)
  | write bs t k ih => exact fun r => ih r (h r)
  | await op t k => exact h.1.elim
  | call c k ih => exact .inr fun r => ih r (h.2 r)

theorem Guarded.bind {f : α → Task S β} (h : p.Guarded C) (hf : ∀ a, (f a).Guarded C) :
    (p.bind f).Guarded C := by
  induction p with
  | done a => exact hf a
  | read n t k ih => exact fun r => ih r (h r)
  | write bs t k ih => exact fun r => ih r (h r)
  | await op t k => exact h.elim
  | call c k ih => exact h.imp id fun h r => ih r (h r)

theorem guarded_peel {ρ : Type} {t : Nat} {k : ρ ⊕ Fin t → Task S (Option α)}
    (h : ∀ r, (k r).Guarded C) (r : ρ ⊕ Fin (t + 1)) :
    ((peel r).elim (.done none) k).Guarded C := by
  cases peel r with
  | none => trivial
  | some r => exact h r

theorem Guarded.timeout (h : p.Guarded C) : p.timeout.Guarded C := by
  induction p with
  | done a => trivial
  | read n t k ih => exact guarded_peel fun r => ih r (h r)
  | write bs t k ih => exact guarded_peel fun r => ih r (h r)
  | await op t k => exact h.elim
  | call c k ih => exact h.imp id fun h r => ih r (h r)

variable [DecidableEq S.Op] [DecidableEq S.Call]

/-- **One event keeps a task guarded**, unless it is the call that the guard waits for. -/
theorem Guarded.step {q : Task S α} {e : Event S} (h : p.Guarded C) (hq : p.step e = some q) :
    q.Guarded C ∨ ∃ c r, e = .returned c r ∧ C c := by
  cases goes_of_step hq with
  | fed hfeed => exact .inl (feed_keeps (P := Guarded C) (fun _ _ _ => Iff.rfl) h hfeed)
  | read r _ => exact .inl (h r)
  | write r _ => exact .inl (h r)
  | sent rest => exact .inl h
  | await r _ => exact h.elim
  | @call c k r =>
    rcases h with h | h
    · exact .inr ⟨c, r, rfl, h⟩
    · exact .inl (h r)

end Guarded

/-! ## The outermost scope -/

/-- Anything but the outermost timer. -/
def Inside {ρ : Type} {t : Nat} (r : ρ ⊕ Fin t) : Prop := ∀ i, r = .inr i → i.val + 1 < t

/--
The outermost timer ends the task with `a` at once, wherever it waits. Unless it does, the
task ends with a result in `R`.
-/
def Scoped (R : α → Prop) (a : α) : Task S α → Prop
  | .done b => R b
  | .read _ t k =>
    (∃ i : Fin t, i.val + 1 = t ∧ k (.inr i) = .done a) ∧ ∀ r, Inside r → (k r).Scoped R a
  | .write _ t k =>
    (∃ i : Fin t, i.val + 1 = t ∧ k (.inr i) = .done a) ∧ ∀ r, Inside r → (k r).Scoped R a
  | .await _ t k =>
    (∃ i : Fin t, i.val + 1 = t ∧ k (.inr i) = .done a) ∧ ∀ r, Inside r → (k r).Scoped R a
  | .call _ k => ∀ r, (k r).Scoped R a

section Scoped

variable {O : S.Op → Prop} {C : S.Call → Prop} {R : α → Prop} {a : α} {p : Task S α}

/-- The continuation of a point below one more scope. -/
theorem scoped_peel {ρ : Type} {t : Nat} {k : ρ ⊕ Fin t → Task S (Option α)}
    (h : ∀ r, ((k r).bind fun o => .done (o.getD a)).Scoped R a) :
    (∃ i : Fin (t + 1), i.val + 1 = t + 1 ∧
      ((peel (.inr i : ρ ⊕ Fin (t + 1))).elim (.done none) k).bind (fun o => .done (o.getD a)) =
        .done a) ∧
    ∀ r : ρ ⊕ Fin (t + 1), Inside r →
      (((peel r).elim (.done none) k).bind fun o => .done (o.getD a)).Scoped R a := by
  refine ⟨⟨⟨t, Nat.lt_succ_self t⟩, rfl, ?_⟩, ?_⟩
  · rw [peel, dif_neg (lt_irrefl t)]
    rfl
  · intro r hr
    cases r with
    | inl r => exact h _
    | inr i =>
      have hi : i.val < t := by
        have := hr i rfl
        omega
      rw [peel, dif_pos hi]
      exact h _

/-- **`timeout` with a default** is the outermost scope of its task. -/
theorem scoped_timeout (h : p.All O C R) :
    (p.timeout.bind fun o => .done (o.getD a)).Scoped R a := by
  induction p with
  | done b => exact h
  | read n t k ih => exact scoped_peel fun r => ih r (h r)
  | write bs t k ih => exact scoped_peel fun r => ih r (h r)
  | await op t k ih => exact scoped_peel fun r => ih r (h.2 r)
  | call c k ih => exact fun r => ih r (h.2 r)

/-- A piece of input does not leave a scope. -/
theorem Scoped.feed {q : Task S α} {c : Bytes} (h : p.Scoped R a) (hq : p.feed c = some q) :
    q.Scoped R a := by
  refine feed_keeps_of (P := Scoped R a) ?_ ?_ h hq
  · intro n t k bs h
    refine h.2 _ ?_
    rintro i ⟨⟩
  · intro n m t k c h
    refine ⟨h.1, ?_⟩
    intro r hr
    refine h.2 _ ?_
    intro i hi
    rcases r with (e | bs) | j
    · cases hi
    · cases hi
    · exact hr i hi

/-- The answer of a point, or its outermost timer. -/
theorem scoped_answer {ρ : Type} {t : Nat} {k : ρ ⊕ Fin t → Task S α} {e : Event S}
    (hend : ∃ i : Fin t, i.val + 1 = t ∧ k (.inr i) = .done a)
    (hk : ∀ r, Inside r → (k r).Scoped R a) (r : ρ ⊕ Fin t) (hr : OwnTimer e r) :
    (k r).Scoped R a ∨ ∃ i, e = .elapsed i ∧ i + 1 = t ∧ k r = .done a := by
  by_cases hinside : Inside r
  · exact .inl (hk r hinside)
  · unfold Inside at hinside
    push Not at hinside
    obtain ⟨i, rfl, hi⟩ := hinside
    obtain ⟨j, hj, hend⟩ := hend
    obtain rfl : i = j := Fin.ext (by omega)
    exact .inr ⟨i.val, hr i rfl, hj, hend⟩

variable [DecidableEq S.Op] [DecidableEq S.Call]

/-- **One event keeps the scope**, or it is the outermost timer. -/
theorem Scoped.step {q : Task S α} {e : Event S} (h : p.Scoped R a) (hq : p.step e = some q) :
    q.Scoped R a ∨ ∃ i, e = .elapsed i ∧ i + 1 = p.timers ∧ q = .done a := by
  cases goes_of_step hq with
  | fed hfeed => exact .inl (h.feed hfeed)
  | read r hr => exact scoped_answer h.1 h.2 r hr
  | write r hr => exact scoped_answer h.1 h.2 r hr
  | sent rest => exact .inl h
  | await r hr => exact scoped_answer h.1 h.2 r hr
  | call r => exact .inl (h r)

/-- The outermost timer ends a task that waits. -/
theorem Scoped.elapsed (h : p.Scoped R a) (hp : 0 < p.timers) :
    p.step (.elapsed (p.timers - 1)) = some (.done a) := by
  have hfires : ∀ {ρ : Type} {t : Nat} {k : ρ ⊕ Fin t → Task S α},
      (∃ i : Fin t, i.val + 1 = t ∧ k (.inr i) = .done a) →
      (if h : t - 1 < t then some (k (.inr ⟨t - 1, h⟩)) else none) = some (.done a) := by
    rintro ρ t k ⟨i, hi, hk⟩
    have hlt : t - 1 < t := by omega
    obtain rfl : i = ⟨t - 1, hlt⟩ := Fin.ext (by simp only; omega)
    rw [dif_pos hlt, hk]
  cases p with
  | read n t k => exact hfires h.1
  | write bs t k => exact hfires h.1
  | await op t k => exact hfires h.1
  | done b => simp [timers] at hp
  | call c k => simp [timers] at hp

end Scoped

end Infra.Task
