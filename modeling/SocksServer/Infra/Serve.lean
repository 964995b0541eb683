import SocksServer.Infra.Stream

/-!
# A task alone with its stream

A task whose peer sends the bytes `input` and then closes, with no timer firing and every write
accepted. How the reads and writes are cut into pieces is left open (`Runs`); it does not
matter (`runs_iff_serve`).

* `serve` : the result, what was written, what is left unread and the state after it
* `runs_iff_serve` : every run that completes ends like that, and one does
* `serve_bind`, `serve_timeout`, `serve_feed`, `serve_truncated` : its rules
-/

namespace Infra.Task

variable {S : Sig} {α β σ : Type}

/-- How a task has ended. -/
structure Served (σ α : Type) where
  result : α
  written : Bytes
  unread : Bytes
  state : σ

namespace Served

/-- The same end, after `out` had been written already. -/
def behind (out : Bytes) (o : Served σ α) : Served σ α := { o with written := out ++ o.written }

theorem behind_behind (out out' : Bytes) (o : Served σ α) :
    (o.behind out').behind out = o.behind (out ++ out') := by
  simp [behind]

end Served

section Serve

-- `eof` is what a read reports at the end of the stream; `call` answers from a state
variable (eof : IoError) (call : (c : S.Call) → σ → S.Res c × σ)

/-- Runs a task on a stream. `none` when it waits for something else. -/
def serve : Task S α → Bytes → σ → Option (Served σ α)
  | .done a, input, s => some ⟨a, [], input, s⟩
  | .read n _ k, input, s =>
    if n ≤ input.length then (k (.inl (.ok (input.take n)))).serve (input.drop n) s
    else (k (.inl (.error eof))).serve [] s
  | .write bs _ k, input, s => ((k (.inl (.ok ()))).serve input s).map (.behind bs)
  | .await _ _ _, _, _ => none
  | .call c k, input, s => (k (call c s).1).serve input (call c s).2

/-- The runs of a task on a stream that complete, in pieces of any size. -/
inductive Runs [DecidableEq S.Op] [DecidableEq S.Call] :
    Task S α → Bytes → σ → Served σ α → Prop
  | done (a : α) (input : Bytes) (s : σ) : Runs (.done a) input s ⟨a, [], input, s⟩
  | received {p q : Task S α} {c input : Bytes} {s : σ} {o : Served σ α} :
    p.step (.received c) = some q → Runs q input s o → Runs p (c ++ input) s o
  | closed {p q : Task S α} {s : σ} {o : Served σ α} :
    p.step (.readFailed eof) = some q → Runs q [] s o → Runs p [] s o
  | sent {p q : Task S α} {c input : Bytes} {s : σ} {o : Served σ α} :
    p.step (.sent c) = some q → Runs q input s o → Runs p input s (o.behind c)
  | returned {p q : Task S α} {c : S.Call} {input : Bytes} {s : σ} {o : Served σ α} :
    p.step (.returned c (call c s).1) = some q → Runs q input (call c s).2 o → Runs p input s o

end Serve

/-! ## No empty reads and writes -/

/-- The task never waits for nothing. -/
def Proper : Task S α → Prop
  | .done _ => True
  | .read n _ k => n ≠ 0 ∧ ∀ r, Proper (k r)
  | .write bs _ k => bs ≠ [] ∧ ∀ r, Proper (k r)
  | .await _ _ k => ∀ r, Proper (k r)
  | .call _ k => ∀ r, Proper (k r)

theorem Proper.bind {p : Task S α} {f : α → Task S β} (hp : Proper p) (hf : ∀ a, Proper (f a)) :
    Proper (p.bind f) := by
  induction p with
  | done a => exact hf a
  | read n t k ih => exact ⟨hp.1, fun r => ih r (hp.2 r)⟩
  | write bs t k ih => exact ⟨hp.1, fun r => ih r (hp.2 r)⟩
  | await op t k ih => exact fun r => ih r (hp r)
  | call c k ih => exact fun r => ih r (hp r)

theorem proper_elim {ρ : Type} {t : Nat} {f : ρ ⊕ Fin t → Task S (Option α)}
    (h : ∀ r, Proper (f r)) (r : ρ ⊕ Fin (t + 1)) :
    Proper ((peel r).elim (.done none) f) := by
  cases peel r with
  | none => trivial
  | some r => exact h r

theorem Proper.timeout {p : Task S α} (hp : Proper p) : Proper p.timeout := by
  induction p with
  | done a => trivial
  | read n t k ih => exact ⟨hp.1, proper_elim fun r => ih r (hp.2 r)⟩
  | write bs t k ih => exact ⟨hp.1, proper_elim fun r => ih r (hp.2 r)⟩
  | await op t k ih => exact proper_elim fun r => ih r (hp r)
  | call c k ih => exact fun r => ih r (hp r)

/-- A write waits only while there is something to write. -/
theorem proper_writeAll (bs : Bytes) : Proper (writeAll bs : Task S _) := by
  unfold writeAll
  split
  · trivial
  · next h => exact ⟨h, fun _ => trivial⟩

theorem proper_callOp (c : S.Call) : Proper (callOp c) := fun _ => trivial

theorem Proper.except_bind {ε : Type} {x : ExceptT ε (Task S) α} {f : α → ExceptT ε (Task S) β}
    (hx : Proper x.run) (hf : ∀ a, Proper (f a).run) : Proper (x >>= f).run := by
  refine Proper.bind hx ?_
  rintro (e | a)
  · trivial
  · exact hf a

/-- A task that only reads and hands on its I/O errors is proper. -/
theorem HandsOn.proper {err : IoError → α} {p : Task S α} (h : HandsOn err p) : Proper p := by
  induction p with
  | done a => trivial
  | read n t k ih =>
    obtain ⟨hn, rfl, herr, hok⟩ := h
    refine ⟨hn, ?_⟩
    rintro ((e | bs) | i)
    · rw [herr e]
      trivial
    · exact ih _ (hok bs)
    · exact i.elim0
  | write bs t k => exact h.elim
  | await op t k => exact h.elim
  | call c k => exact h.elim

theorem Proper.recv {p q : Task S α} {b : UInt8} (hp : Proper p) (h : p.recv b = some q) :
    Proper q := by
  cases p with
  | read n t k =>
    simp only [Task.recv] at h
    split at h
    · cases h
    · split at h
      · rw [← Option.some.inj h]
        exact hp.2 _
      · rw [← Option.some.inj h]
        exact ⟨by omega, fun r => hp.2 _⟩
  | done a => cases h
  | write bs t k => cases h
  | await op t k => cases h
  | call c k => cases h

theorem Proper.feed {p q : Task S α} {c : Bytes} (hp : Proper p) (h : p.feed c = some q) :
    Proper q := by
  induction c generalizing p with
  | nil =>
    rw [feed_nil] at h
    rw [← Option.some.inj h]
    exact hp
  | cons b c ih =>
    rw [Task.feed] at h
    obtain ⟨r, hr, hrest⟩ := Option.bind_eq_some_iff.mp h
    exact ih (hp.recv hr) hrest

/-! ## Rules of `serve` -/

section Rules

variable {eof : IoError} {call : (c : S.Call) → σ → S.Res c × σ}

/-- **Serving one task after the other.** -/
theorem serve_bind (p : Task S α) (f : α → Task S β) (input : Bytes) (s : σ) :
    (p.bind f).serve eof call input s =
      (p.serve eof call input s).bind fun o =>
        ((f o.result).serve eof call o.unread o.state).map (.behind o.written) := by
  induction p generalizing input s with
  | done a =>
    show (f a).serve eof call input s = ((f a).serve eof call input s).map (.behind [])
    cases (f a).serve eof call input s <;> rfl
  | read n t k ih =>
    simp only [bind, serve]
    split
    · exact ih _ _ _
    · exact ih _ _ _
  | write bs t k ih =>
    simp only [bind, serve, ih]
    cases (k (.inl (.ok ()))).serve eof call input s with
    | none => rfl
    | some o =>
      simp only [Option.map_some, Option.bind_some, Option.map_map]
      congr 1
      funext x
      exact Served.behind_behind bs o.written x
  | await op t k => rfl
  | call c k ih => exact ih _ _ _

/-- No timer fires while a task is served. -/
theorem serve_timeout (p : Task S α) (input : Bytes) (s : σ) :
    p.timeout.serve eof call input s =
      (p.serve eof call input s).map fun o => ⟨some o.result, o.written, o.unread, o.state⟩ := by
  induction p generalizing input s with
  | done a => rfl
  | read n t k ih =>
    simp only [timeout, serve]
    split
    · exact ih _ _ _
    · exact ih _ _ _
  | write bs t k ih =>
    simp only [timeout, serve, peel, Option.elim_some, ih]
    cases (k (.inl (.ok ()))).serve eof call input s <;> rfl
  | await op t k => rfl
  | call c k ih => exact ih _ _ _

/-- `bind` of two tasks that both come to an end. -/
theorem serve_bind_of {p : Task S α} {f : α → Task S β} {input rest rest' out out' : Bytes}
    {s s' s'' : σ} {a : α} {b : β} (hp : p.serve eof call input s = some ⟨a, out, rest, s'⟩)
    (hf : (f a).serve eof call rest s' = some ⟨b, out', rest', s''⟩) :
    (p.bind f).serve eof call input s = some ⟨b, out ++ out', rest', s''⟩ := by
  rw [serve_bind, hp, Option.bind_some, hf]
  rfl

/-- Plain code behind a task. -/
theorem serve_bind_done {p : Task S α} {f : α → Task S β} {input rest out : Bytes} {s s' : σ}
    {a : α} {b : β} (hp : p.serve eof call input s = some ⟨a, out, rest, s'⟩)
    (hf : f a = .done b) : (p.bind f).serve eof call input s = some ⟨b, out, rest, s'⟩ := by
  rw [serve_bind, hp, Option.bind_some, hf]
  show some (Served.mk b (out ++ []) rest s') = _
  rw [List.append_nil]

theorem serve_writeAll (bs : Bytes) (input : Bytes) (s : σ) :
    (writeAll bs).serve eof call input s = some ⟨.ok (), bs, input, s⟩ := by
  unfold writeAll
  split
  · next h =>
    rw [h]
    rfl
  · show some (Served.mk _ (bs ++ []) _ _) = _
    rw [List.append_nil]
    rfl

theorem serve_callOp (c : S.Call) (input : Bytes) (s : σ) :
    (callOp c).serve eof call input s = some ⟨(call c s).1, [], input, (call c s).2⟩ := rfl

/-- Sequencing below `?`. -/
theorem serve_except_ok {ε : Type} {x : ExceptT ε (Task S) α} {f : α → ExceptT ε (Task S) β}
    {input rest rest' out out' : Bytes} {s s' s'' : σ} {a : α} {r : Except ε β}
    (hx : x.run.serve eof call input s = some ⟨.ok a, out, rest, s'⟩)
    (hf : (f a).run.serve eof call rest s' = some ⟨r, out', rest', s''⟩) :
    (x >>= f).run.serve eof call input s = some ⟨r, out ++ out', rest', s''⟩ :=
  serve_bind_of hx hf

/-- An error ends what follows with `?`. -/
theorem serve_except_error {ε : Type} {x : ExceptT ε (Task S) α} {f : α → ExceptT ε (Task S) β}
    {input rest out : Bytes} {s s' : σ} {e : ε}
    (hx : x.run.serve eof call input s = some ⟨.error e, out, rest, s'⟩) :
    (x >>= f).run.serve eof call input s = some ⟨.error e, out, rest, s'⟩ :=
  serve_bind_done hx rfl

/-- A byte may be received before the task is served. -/
theorem serve_recv {p q : Task S α} {b : UInt8} (input : Bytes) (s : σ) (h : p.recv b = some q) :
    p.serve eof call (b :: input) s = q.serve eof call input s := by
  cases p with
  | read n t k =>
    simp only [recv] at h
    split at h
    · cases h
    · next hn =>
      split at h
      · next h1 =>
        subst h1
        rw [← Option.some.inj h]
        simp [serve]
      · next h1 =>
        -- the byte is kept for the rest of the read
        obtain ⟨m, rfl⟩ : ∃ m, n = m + 1 := ⟨n - 1, by omega⟩
        rw [← Option.some.inj h]
        simp only [serve, List.length_cons, Nat.add_sub_cancel, Nat.add_le_add_iff_right,
          List.take_succ_cons, List.drop_succ_cons]
        rfl
  | done a => cases h
  | write bs t k => cases h
  | await op t k => cases h
  | call c k => cases h

/-- A stream that starts with `c` is served like the rest of it after `c`. -/
theorem serve_feed {p q : Task S α} {c : Bytes} (input : Bytes) (s : σ) (h : p.feed c = some q) :
    p.serve eof call (c ++ input) s = q.serve eof call input s := by
  induction c generalizing p with
  | nil =>
    rw [feed_nil] at h
    rw [Option.some.inj h, List.nil_append]
  | cons b c ih =>
    rw [feed] at h
    obtain ⟨r, hr, hrest⟩ := Option.bind_eq_some_iff.mp h
    rw [List.cons_append, serve_recv _ _ hr, ih hrest]

/-- A message that ends too early is an I/O error. -/
theorem serve_truncated {err : IoError → α} {p q : Task S α} {c d : Bytes} (s : σ)
    (hp : HandsOn err p) (h : p.feed (c ++ d) = some q) (hd : d ≠ []) :
    p.serve eof call c s = some ⟨err eof, [], [], s⟩ := by
  rw [feed_append] at h
  obtain ⟨r, hr, hrest⟩ := Option.bind_eq_some_iff.mp h
  obtain ⟨n, t, k, rfl, hn⟩ := exists_read_of_feed hd hrest
  have hserve : p.serve eof call (c ++ []) s = _ := serve_feed [] s hr
  rw [List.append_nil] at hserve
  rw [hserve, serve, if_neg (by simp; omega), (hp.feed hr).2.2.1 eof]
  rfl

/-! ## Pieces -/

variable [DecidableEq S.Op] [DecidableEq S.Call]

/-- A write of which a part has been accepted. -/
theorem serve_sent {p q : Task S α} {c : Bytes} (input : Bytes) (s : σ) (hp : Proper p)
    (h : p.step (.sent c) = some q) :
    Proper q ∧ p.serve eof call input s = (q.serve eof call input s).map (.behind c) := by
  obtain ⟨bs, t, k, rfl, hne, ⟨d, rfl⟩, rfl⟩ := step_sent h
  split
  · next hd => exact ⟨hp.2 _, by rw [serve, ← hd]⟩
  · next hd =>
    rw [List.drop_left]
    refine ⟨⟨by simpa using hd, hp.2⟩, ?_⟩
    simp only [serve, Option.map_map]
    congr 1
    funext x
    exact (Served.behind_behind c d x).symm

/-- The end of the stream may be seen before the task is served. -/
theorem serve_closed {p q : Task S α} (s : σ) (hp : Proper p)
    (h : p.step (.readFailed eof) = some q) :
    Proper q ∧ p.serve eof call [] s = q.serve eof call [] s := by
  cases p <;> simp only [step, reduceCtorEq] at h
  case read n t k =>
    rw [← Option.some.inj h]
    refine ⟨hp.2 _, ?_⟩
    rw [serve, if_neg (by simpa using hp.1)]

/-- A call may be answered before the task is served. -/
theorem serve_returned {p q : Task S α} {c : S.Call} (input : Bytes) (s : σ) (hp : Proper p)
    (h : p.step (.returned c (call c s).1) = some q) :
    Proper q ∧ p.serve eof call input s = q.serve eof call input (call c s).2 := by
  cases p <;> simp only [step, reduceCtorEq] at h
  case call c' k =>
    split at h
    · next hc =>
      subst hc
      rw [← Option.some.inj h]
      exact ⟨hp _, rfl⟩
    · cases h

/-- **Pieces do not matter.** A run that completes ends as `serve` says, and one does. -/
theorem runs_iff_serve {p : Task S α} (hp : Proper p) {input : Bytes} {s : σ} {o : Served σ α} :
    Runs eof call p input s o ↔ p.serve eof call input s = some o := by
  constructor
  · intro h
    induction h with
    | done a input s => rfl
    | received hstep hrun ih =>
      have hfeed := step_received hstep
      rw [serve_feed _ _ hfeed]
      exact ih (hp.feed hfeed)
    | closed hstep hrun ih =>
      obtain ⟨hq, hserve⟩ := serve_closed _ hp hstep
      rw [hserve]
      exact ih hq
    | sent hstep hrun ih =>
      obtain ⟨hq, hserve⟩ := serve_sent _ _ hp hstep
      rw [hserve, ih hq]
      rfl
    | returned hstep hrun ih =>
      obtain ⟨hq, hserve⟩ := serve_returned _ _ hp hstep
      rw [hserve]
      exact ih hq
  · intro h
    induction p generalizing input s o with
    | done a =>
      rw [← Option.some.inj h]
      exact .done a input s
    | read n t k ih =>
      obtain ⟨hn, hk⟩ := hp
      rw [serve] at h
      split at h
      · next hle =>
        -- all of it in one piece
        rw [← List.take_append_drop n input]
        have hlen : (input.take n).length = n := by simp; omega
        have hne : input.take n ≠ [] := by
          intro hnil
          rw [hnil] at hlen
          exact hn hlen.symm
        refine .received ?_ (ih _ (hk _) h)
        rw [step, if_pos ⟨hne, hlen.le⟩, feed_read k hlen hn]
      · next hlt =>
        have hclosed : ∀ k' : Except IoError Bytes ⊕ Fin t → Task S α,
            k' (.inl (.error eof)) = k (.inl (.error eof)) →
            ∀ m, Runs eof call (.read m t k') [] s o := by
          intro k' hk' m
          refine .closed rfl ?_
          rw [hk']
          exact ih _ (hk _) h
        by_cases hnil : input = []
        · rw [hnil]
          exact hclosed k rfl n
        · -- what there is, and then the end of the stream
          rw [← List.append_nil input]
          refine .received ?_ (hclosed (fun r => k (prepend input r)) rfl (n - input.length))
          rw [step, if_pos ⟨hnil, by omega⟩, feed_read_of_lt k (by omega)]
    | write bs t k ih =>
      obtain ⟨hbs, hk⟩ := hp
      rw [serve] at h
      obtain ⟨o', ho', rfl⟩ := Option.map_eq_some_iff.mp h
      refine .sent ?_ (ih _ (hk _) ho')
      rw [step, if_pos ⟨hbs, List.prefix_rfl⟩, if_pos rfl]
    | await op t k => cases h
    | call c k ih =>
      exact .returned (dif_pos rfl) (ih _ (hp _) h)

end Rules

end Infra.Task
