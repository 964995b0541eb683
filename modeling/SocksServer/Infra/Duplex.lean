import SocksServer.Infra.Machine
import SocksServer.Infra.Stream

/-!
# Two parties over two byte channels

Two tasks talk to each other over a pair of reliable FIFO channels. Reads and writes are cut
into pieces in any way and the parties move in any order. Everything else a party asks for is
answered by an oracle.

* `Does` — what a task does on its own: the messages it reads and writes whole, in order
* `Does.bind`, `Does.timeout` — the same below more code and more timers
* `Dual` — what one party writes the other one reads next
* `stuck_eq` — if two parties are dual then every state without a next step is the one in
  which both have come to the end of what they do, and the channels are empty
-/

namespace Infra.Task

variable {S : Sig} {α β : Type}

/-! ## What a task does on its own -/

/-- How a future ends. -/
inductive Answer (ρ : Type) where
  | ready (r : ρ)
  /-- The innermost timer fires first. -/
  | elapsed
  | pending

/-- Answers to everything but the byte stream. A future is known by its number. -/
structure Oracle (S : Sig) where
  await : (op : S.Op) → Nat → Answer (S.Ret op)
  call : (c : S.Call) → S.Res c

/-- A step that the stream has no part in. `n` futures have been answered before. -/
def silent (O : Oracle S) (n : Nat) : Task S α → Option (Nat × Task S α)
  | .await op t k =>
    match O.await op n with
    | .ready r => some (n + 1, k (.inl r))
    | .elapsed => if h : 0 < t then some (n + 1, k (.inr ⟨0, h⟩)) else none
    | .pending => none
  | .call c k => some (n, k (O.call c))
  | _ => none

/-- A message that is read or written as a whole, or a silent step. -/
inductive Act where
  | recv (bs : Bytes)
  | send (bs : Bytes)
  | silent
  deriving DecidableEq, Repr

/-- The task `p` does `acts` and then is `r`. -/
def Does (O : Oracle S) (n : Nat) (p : Task S α) : List Act → Nat → Task S α → Prop
  | [], m, r => n = m ∧ p = r
  | .recv bs :: acts, m, r => bs ≠ [] ∧ ∃ q, p.feed bs = some q ∧ Does O n q acts m r
  | .send bs :: acts, m, r => bs ≠ [] ∧ ∃ t k, p = .write bs t k ∧
    Does O n (k (.inl (.ok ()))) acts m r
  | .silent :: acts, m, r => ∃ n' q, p.silent O n = some (n', q) ∧ Does O n' q acts m r

section Does

variable {O : Oracle S} {n m l : Nat} {p q r : Task S α} {acts acts' : List Act}

/-- **One part of a script after the other.** -/
theorem Does.trans (h : Does O n p acts m q) (h' : Does O m q acts' l r) :
    Does O n p (acts ++ acts') l r := by
  induction acts generalizing n p with
  | nil =>
    obtain ⟨rfl, rfl⟩ := h
    exact h'
  | cons a acts ih =>
    cases a with
    | recv bs =>
      obtain ⟨hne, p', hf, h⟩ := h
      exact ⟨hne, p', hf, ih h⟩
    | send bs =>
      obtain ⟨hne, t, k, hp, h⟩ := h
      exact ⟨hne, t, k, hp, ih h⟩
    | silent =>
      obtain ⟨n', p', hs, h⟩ := h
      exact ⟨n', p', hs, ih h⟩

theorem silent_bind {n' : Nat} (f : α → Task S β) (h : p.silent O n = some (n', q)) :
    (p.bind f).silent O n = some (n', q.bind f) := by
  cases p with
  | await op t k =>
    simp only [silent] at h
    simp only [bind, silent]
    split at h
    · obtain ⟨rfl, rfl⟩ := Prod.mk.inj (Option.some.inj h)
      rfl
    · split at h
      · next ht =>
        obtain ⟨rfl, rfl⟩ := Prod.mk.inj (Option.some.inj h)
        simp only [ht, dif_pos]
      · simp at h
    · simp at h
  | call c k =>
    obtain ⟨rfl, rfl⟩ := Prod.mk.inj (Option.some.inj h)
    rfl
  | done a => simp [silent] at h
  | read n t k => simp [silent] at h
  | write bs t k => simp [silent] at h

theorem silent_timeout {n' : Nat} (h : p.silent O n = some (n', q)) :
    p.timeout.silent O n = some (n', q.timeout) := by
  cases p with
  | await op t k =>
    simp only [silent] at h
    simp only [timeout, silent]
    split at h
    · obtain ⟨rfl, rfl⟩ := Prod.mk.inj (Option.some.inj h)
      rfl
    · split at h
      · next ht =>
        obtain ⟨rfl, rfl⟩ := Prod.mk.inj (Option.some.inj h)
        simp [peel, ht]
      · simp at h
    · simp at h
  | call c k =>
    obtain ⟨rfl, rfl⟩ := Prod.mk.inj (Option.some.inj h)
    rfl
  | done a => simp [silent] at h
  | read n t k => simp [silent] at h
  | write bs t k => simp [silent] at h

/-- A script of the task that stands first. -/
theorem Does.bind (f : α → Task S β) (h : Does O n p acts m q) :
    Does O n (p.bind f) acts m (q.bind f) := by
  induction acts generalizing n p with
  | nil =>
    obtain ⟨rfl, rfl⟩ := h
    exact ⟨rfl, rfl⟩
  | cons a acts ih =>
    cases a with
    | recv bs =>
      obtain ⟨hne, p', hf, h⟩ := h
      exact ⟨hne, p'.bind f, feed_bind f hf, ih h⟩
    | send bs =>
      obtain ⟨hne, t, k, rfl, h⟩ := h
      exact ⟨hne, t, _, rfl, ih h⟩
    | silent =>
      obtain ⟨n', p', hs, h⟩ := h
      exact ⟨n', p'.bind f, silent_bind f hs, ih h⟩

theorem Does.timeout (h : Does O n p acts m q) : Does O n p.timeout acts m q.timeout := by
  induction acts generalizing n p with
  | nil =>
    obtain ⟨rfl, rfl⟩ := h
    exact ⟨rfl, rfl⟩
  | cons a acts ih =>
    cases a with
    | recv bs =>
      obtain ⟨hne, p', hf, h⟩ := h
      exact ⟨hne, p'.timeout, feed_timeout hf, ih h⟩
    | send bs =>
      obtain ⟨hne, t, k, rfl, h⟩ := h
      exact ⟨hne, t + 1, _, rfl, ih h⟩
    | silent =>
      obtain ⟨n', p', hs, h⟩ := h
      exact ⟨n', p'.timeout, silent_timeout hs, ih h⟩

/-- A task that does something and is done goes on with what follows. -/
theorem Does.seq {v w : List Act} {f : α → Task S β} {a : α} {r : Task S β}
    (h : Does O n p v m (.done a)) (h' : Does O m (f a) w l r) : Does O n (p.bind f) (v ++ w) l r :=
  Does.trans (Does.bind f h) h'

/-- The `?` operator after success. -/
theorem Does.exceptSeq {ε : Type} {v w : List Act} {x : ExceptT ε (Task S) α}
    {f : α → ExceptT ε (Task S) β} {a : α} {r : Task S (Except ε β)}
    (h : Does O n x.run v m (.done (.ok a)))
    (h' : Does O m (f a).run w l r) : Does O n (x >>= f).run (v ++ w) l r :=
  Does.seq h h'

/-- The `?` operator after an error. -/
theorem Does.exceptError {ε : Type} {v : List Act} {x : ExceptT ε (Task S) α}
    {f : α → ExceptT ε (Task S) β} {e : ε} (h : Does O n x.run v m (.done (.error e))) :
    Does O n (x >>= f).run v m (.done (.error e)) := Does.bind _ h

theorem does_nil : Does O n p [] n p := ⟨rfl, rfl⟩

theorem does_recv {bs : Bytes} (hne : bs ≠ []) (h : p.feed bs = some q) :
    Does O n p [.recv bs] n q := ⟨hne, q, h, does_nil⟩

theorem does_writeAll {bs : Bytes} (hne : bs ≠ []) :
    Does O n (writeAll bs : Task S _) [.send bs] n (.done (.ok ())) := by
  unfold writeAll
  rw [if_neg hne]
  exact ⟨hne, 0, _, rfl, does_nil⟩

theorem does_callOp {c : S.Call} :
    Does O n (callOp c) [.silent] n (.done (O.call c)) := ⟨n, _, rfl, does_nil⟩

end Does

/-! ## Silent runs -/

/-- All silent steps, as far as they go. -/
def settle (O : Oracle S) : Nat → Task S α → Nat × Task S α
  | n, .await op t k =>
    match O.await op n with
    | .ready r => settle O (n + 1) (k (.inl r))
    | .elapsed =>
      if h : 0 < t then settle O (n + 1) (k (.inr ⟨0, h⟩)) else (n, .await op t k)
    | .pending => (n, .await op t k)
  | n, .call c k => settle O n (k (O.call c))
  | n, .done a => (n, .done a)
  | n, .read k t f => (n, .read k t f)
  | n, .write bs t k => (n, .write bs t k)

/-- What a party does on its own. -/
theorem does_settle (O : Oracle S) (n : Nat) (p : Task S α) :
    ∃ steps, Does O n p (List.replicate steps .silent) (settle O n p).1 (settle O n p).2 := by
  induction p generalizing n with
  | done a => exact ⟨0, rfl, rfl⟩
  | read k t f => exact ⟨0, rfl, rfl⟩
  | write bs t k => exact ⟨0, rfl, rfl⟩
  | call c k ih =>
    obtain ⟨steps, h⟩ := ih (O.call c) n
    exact ⟨steps + 1, n, k (O.call c), rfl, h⟩
  | await op t k ih =>
    simp only [settle]
    split
    · next r hr =>
      obtain ⟨steps, h⟩ := ih (.inl r) (n + 1)
      exact ⟨steps + 1, n + 1, k (.inl r), by simp [silent, hr], h⟩
    · next hr =>
      split
      · next ht =>
        obtain ⟨steps, h⟩ := ih (.inr ⟨0, ht⟩) (n + 1)
        exact ⟨steps + 1, n + 1, k (.inr ⟨0, ht⟩), by simp [silent, hr, ht], h⟩
      · exact ⟨0, rfl, rfl⟩
    · exact ⟨0, rfl, rfl⟩

/-- The future is answered, and the party goes on. -/
theorem settle_ready {O : Oracle S} {n : Nat} {o : S.Op} {r : S.Ret o} {f : S.Ret o → Task S α}
    (h : O.await o n = .ready r) :
    settle O n ((awaitOp o).bind f).timeout = settle O (n + 1) (f r).timeout := by
  simp only [awaitOp, bind, timeout, settle, h]
  rfl

/-- The timer comes first. -/
theorem settle_elapsed {O : Oracle S} {n : Nat} {o : S.Op} {f : S.Ret o → Task S α}
    (h : O.await o n = .elapsed) :
    settle O n ((awaitOp o).bind f).timeout = (n + 1, .done none) := by
  simp only [awaitOp, bind, timeout, settle, h]
  rfl

/-! ## Two parties -/

/-- A party that waits for the other one, or has nothing left to do. -/
def Waiting : List Act → Prop
  | [] => True
  | .recv _ :: _ => True
  | _ => False

theorem waiting_nil : Waiting [] := trivial

theorem waiting_recv {bs : Bytes} {l : List Act} : Waiting (.recv bs :: l) := trivial

/-- What one party writes the other one reads next. Silent steps are taken while it waits. -/
inductive Dual : List Act → List Act → Prop
  | nil : Dual [] []
  | leftSend {bs : Bytes} {l r : List Act} : Dual l r → Dual (.send bs :: l) (.recv bs :: r)
  | rightSend {bs : Bytes} {l r : List Act} : Dual l r → Dual (.recv bs :: l) (.send bs :: r)
  | leftSilent {l r : List Act} : Waiting r → Dual l r → Dual (.silent :: l) r
  | rightSilent {l r : List Act} : Waiting l → Dual l r → Dual l (.silent :: r)

/-- Either side is the other one of its other side. -/
theorem Dual.symm {l r : List Act} (h : Dual l r) : Dual r l := by
  induction h with
  | nil => exact .nil
  | leftSend _ ih => exact .rightSend ih
  | rightSend _ ih => exact .leftSend ih
  | leftSilent hw _ ih => exact .rightSilent hw ih
  | rightSilent hw _ ih => exact .leftSilent hw ih

/-- Any number of silent steps while the other party waits. -/
theorem Dual.rightSilents {l r : List Act} (hw : Waiting l) (h : Dual l r) (n : Nat) :
    Dual l (List.replicate n .silent ++ r) := by
  induction n with
  | zero => exact h
  | succ n ih => exact .rightSilent hw ih

/-- What one sends next the other receives next. -/
theorem Dual.of_send {bs : Bytes} {l r : List Act} (h : Dual (.send bs :: l) r) :
    ∃ r', r = .recv bs :: r' ∧ Dual l r' := by
  cases h with
  | leftSend h => exact ⟨_, rfl, h⟩
  | rightSilent hw _ => exact absurd hw (by simp [Waiting])

/-- A silent step is of one side only. -/
theorem Dual.of_silent {l r : List Act} (h : Dual (.silent :: l) r) : Dual l r := by
  cases h with
  | leftSilent _ h => exact h
  | rightSilent hw _ => exact absurd hw (by simp [Waiting])

/-- A task with the channel it reads from. -/
structure Party (S : Sig) (α : Type) where
  task : Task S α
  inbox : Bytes
  /-- Futures answered so far. -/
  asked : Nat

/-- What a party can do next: send a piece, take a piece, or a step on its own. -/
inductive Move where
  | send (c : Bytes)
  | recv (n : Nat)
  | silent
  deriving DecidableEq, Repr

namespace Party

variable {S : Sig} {α : Type} [DecidableEq S.Op] [DecidableEq S.Call]

/-- The party after a move, and what it has put into the other party's channel. -/
def move (O : Oracle S) (x : Party S α) : Move → Option (Party S α × Bytes)
  | .send c => (x.task.step (.sent c)).map fun q => ({ x with task := q }, c)
  | .recv n => (x.task.step (.received (x.inbox.take n))).map fun q =>
    ({ x with task := q, inbox := x.inbox.drop n }, [])
  | .silent => (x.task.silent O x.asked).map fun (asked, q) => ({ x with task := q, asked }, [])

/-- The party waits for the other one, or for a future that does not end, or has returned. -/
def blocked (O : Oracle S) (x : Party S α) : Bool :=
  match x.task with
  | .read _ _ _ => x.inbox.isEmpty
  | .write _ _ _ => false
  | task => (task.silent O x.asked).isNone

/-- A party that is blocked makes no move. -/
theorem move_of_blocked {O : Oracle S} {x : Party S α} (h : x.blocked O) (m : Move) :
    x.move O m = none := by
  obtain ⟨task, inbox, asked⟩ := x
  cases task <;> cases m <;> simp_all [blocked, move, Task.step, Task.silent]

end Party

section Duplex

variable {S T : Sig} {α β : Type}

/-- Two parties; each channel is the inbox of its reader. -/
structure Duplex (S T : Sig) (α β : Type) where
  left : Party S α
  right : Party T β

def Duplex.swap (d : Duplex S T α β) : Duplex T S β α := ⟨d.right, d.left⟩

/-- A party that has come to its end does nothing more on its own. -/
structure Halted (O : Oracle S) (n : Nat) (p : Task S α) : Prop where
  silent : p.silent O n = none
  not_write : ∀ bs t k, p ≠ .write bs t k

/--
The invariant. Once a party has read all that is on the way to it, it still `Does` the rest of
what it had to do, and the two rests are dual.
-/
def InStep (O : Oracle S) (P : Oracle T) (m : Nat) (p : Task S α) (n : Nat) (q : Task T β)
    (d : Duplex S T α β) : Prop :=
  ∃ p' q' l r, d.left.task.feed d.left.inbox = some p' ∧
    d.right.task.feed d.right.inbox = some q' ∧
    Does O d.left.asked p' l m p ∧ Does P d.right.asked q' r n q ∧ Dual l r

variable {O : Oracle S} {P : Oracle T} {m n : Nat} {p : Task S α} {q : Task T β}
  {d d' : Duplex S T α β}

/-- Either party may be called the first. -/
theorem InStep.swap (h : InStep O P m p n q d) : InStep P O n q m p d.swap := by
  obtain ⟨p', q', l, r, hp, hq, hl, hr, hd⟩ := h
  exact ⟨q', p', r, l, hq, hp, hr, hl, hd.symm⟩

/-- A task that does not read has nothing on the way to it. -/
theorem inbox_nil {p p' : Task S α} {c : Bytes} (h : p.feed c = some p')
    (hr : ∀ n t k, p ≠ .read n t k) : c = [] ∧ p = p' := by
  by_cases hc : c = []
  · subst hc
    exact ⟨rfl, Option.some.inj h⟩
  · obtain ⟨n, t, k, he, -⟩ := exists_read_of_feed hc h
    exact absurd he (hr n t k)

/-- A party that reads or writes makes no silent step. -/
theorem silent_shape {p p' : Task S α} {k k' : Nat} (h : p.silent O k = some (k', p')) :
    (∀ n t f, p ≠ .read n t f) ∧ ∀ bs t f, p ≠ .write bs t f := by
  cases p <;> simp [Task.silent] at h ⊢

/-- A message of which a part is on the way. -/
theorem Does.recv_part {p r : Task S α} {c bs : Bytes} {k k' : Nat} {acts : List Act}
    (h : Does O k p (.recv bs :: acts) k' r) (hc : c <+: bs) :
    ∃ p', p.feed c = some p' ∧
      if c = bs then Does O k p' acts k' r
      else Does O k p' (.recv (bs.drop c.length) :: acts) k' r := by
  obtain ⟨hne, q, hf, h⟩ := h
  obtain ⟨rest, rfl⟩ := hc
  rw [feed_append] at hf
  obtain ⟨p', hp', hq⟩ := Option.bind_eq_some_iff.mp hf
  refine ⟨p', hp', ?_⟩
  by_cases hrest : rest = []
  · subst hrest
    rw [if_pos (by simp)]
    rw [feed_nil] at hq
    rw [Option.some.inj hq]
    exact h
  · rw [if_neg (by simpa using hrest), List.drop_left]
    exact ⟨hrest, q, hq, h⟩

variable [DecidableEq S.Op] [DecidableEq S.Call] [DecidableEq T.Op] [DecidableEq T.Call]

/-- One move of one party: `inl` for the left one. -/
def Duplex.step (O : Oracle S) (P : Oracle T) (d : Duplex S T α β) :
    Move ⊕ Move → Option (Duplex S T α β)
  | .inl m => (d.left.move O m).map fun (left, c) =>
    { left, right := { d.right with inbox := d.right.inbox ++ c } }
  | .inr m => (d.right.move P m).map fun (right, c) =>
    { left := { d.left with inbox := d.left.inbox ++ c }, right }

/-- Where both parties are blocked there is no next step. -/
theorem Duplex.step_of_blocked {O : Oracle S} {P : Oracle T} {d : Duplex S T α β}
    (h : (d.left.blocked O && d.right.blocked P) = true) (e : Move ⊕ Move) :
    d.step O P e = none := by
  obtain ⟨hl, hr⟩ := Bool.and_eq_true_iff.mp h
  cases e with
  | inl m => simp [Duplex.step, Party.move_of_blocked hl]
  | inr m => simp [Duplex.step, Party.move_of_blocked hr]

/-- **The invariant is kept by every move of the left party.** -/
theorem InStep.move (h : InStep O P m p n q d) (hhalt : Halted O m p) {move : Move}
    (hs : d.step O P (.inl move) = some d') : InStep O P m p n q d' := by
  obtain ⟨p', q', l, r, hp, hq, hl, hr, hdual⟩ := h
  obtain ⟨⟨left, c⟩, hmove, rfl⟩ := Option.map_eq_some_iff.mp hs
  cases move with
  | recv k =>
    -- a piece moves from the channel into the task: nothing changes once all is read
    obtain ⟨task, ht, hx⟩ := Option.map_eq_some_iff.mp hmove
    obtain ⟨rfl, rfl⟩ := Prod.mk.inj hx
    have hfeed := step_received ht
    have hrest : task.feed (d.left.inbox.drop k) = some p' := by
      have hp' := hp
      rw [← List.take_append_drop k d.left.inbox, feed_append, hfeed] at hp'
      exact hp'
    exact ⟨p', q', l, r, hrest, by simpa using hq, hl, hr, hdual⟩
  | send piece =>
    obtain ⟨task, ht, hx⟩ := Option.map_eq_some_iff.mp hmove
    obtain ⟨rfl, rfl⟩ := Prod.mk.inj hx
    obtain ⟨bs, t, k, htask, hne, hc, rfl⟩ := step_sent ht
    obtain ⟨hnil, rfl⟩ := inbox_nil hp (by simp [htask])
    -- what the task does next can only be to write these bytes
    rw [htask] at hl
    match l, hl with
    | [], hl => exact absurd hl.2.symm (hhalt.not_write bs t k)
    | .recv bs' :: l, hl =>
      obtain ⟨hne', x, hx, -⟩ := hl
      obtain ⟨_, _, _, he, -⟩ := exists_read_of_feed hne' hx
      simp at he
    | .silent :: l, hl =>
      obtain ⟨_, _, hx, -⟩ := hl
      simp [Task.silent] at hx
    | .send bs' :: l, hl =>
      obtain ⟨hne', t', k', he, hl⟩ := hl
      obtain ⟨rfl, rfl, he⟩ := write.inj he
      cases he
      obtain ⟨r', rfl, hdual'⟩ := hdual.of_send
      obtain ⟨qfed, hqfed, hr'⟩ := Does.recv_part hr hc
      have hright : d.right.task.feed (d.right.inbox ++ piece) = some qfed := by
        rw [feed_append, hq]
        exact hqfed
      -- the part that is sent goes from the script of one party to the channel of the other
      by_cases hall : piece = bs
      · rw [if_pos hall] at hr' ⊢
        refine ⟨_, qfed, l, r', ?_, hright, hl, hr', hdual'⟩
        simp [hnil]
      · rw [if_neg hall] at hr' ⊢
        have hrest : bs.drop piece.length ≠ [] := by
          obtain ⟨rest, rfl⟩ := hc
          rw [List.drop_left]
          rintro rfl
          simp at hall
        refine ⟨_, qfed, .send (bs.drop piece.length) :: l, _, ?_, hright, ⟨hrest, t, k, rfl, hl⟩,
          hr', .leftSend hdual'⟩
        simp [hnil]
  | silent =>
    obtain ⟨⟨asked, task⟩, ht, hx⟩ := Option.map_eq_some_iff.mp hmove
    obtain ⟨rfl, rfl⟩ := Prod.mk.inj hx
    obtain ⟨hread, hwrite⟩ := silent_shape ht
    obtain ⟨hnil, rfl⟩ := inbox_nil hp hread
    match l, hl with
    | [], hl =>
      obtain ⟨hm, hp⟩ := hl
      rw [hm, hp, hhalt.silent] at ht
      simp at ht
    | .recv bs' :: l, hl =>
      obtain ⟨hne', x, hx, -⟩ := hl
      obtain ⟨_, _, _, he, -⟩ := exists_read_of_feed hne' hx
      exact absurd he (hread _ _ _)
    | .send bs' :: l, hl =>
      obtain ⟨-, t, k, he, -⟩ := hl
      exact absurd he (hwrite _ _ _)
    | .silent :: l, hl =>
      obtain ⟨_, _, hx, hl⟩ := hl
      rw [ht] at hx
      obtain ⟨rfl, rfl⟩ := Prod.mk.inj (Option.some.inj hx)
      refine ⟨_, q', l, r, ?_, by simpa using hq, hl, hr, hdual.of_silent⟩
      simp [hnil]

/-- **The invariant is kept by every step.** -/
theorem InStep.step (h : InStep O P m p n q d) (hp : Halted O m p) (hq : Halted P n q)
    {e : Move ⊕ Move} (hs : d.step O P e = some d') : InStep O P m p n q d' := by
  cases e with
  | inl move => exact h.move hp hs
  | inr move =>
    have hs' : d.swap.step P O (.inl move) = some d'.swap := by
      obtain ⟨x, hx, rfl⟩ := Option.map_eq_some_iff.mp hs
      exact Option.map_eq_some_iff.mpr ⟨x, hx, rfl⟩
    exact (h.swap.move hq hs').swap

/-- A party with something on the way to it can take a byte. -/
theorem exists_recv {x : Party S α} {p' : Task S α} (h : x.task.feed x.inbox = some p')
    (hne : x.inbox ≠ []) : ∃ r, x.move O (.recv 1) = some r := by
  obtain ⟨k, t, f, hx, hk⟩ := exists_read_of_feed hne h
  match hi : x.inbox, hne with
  | b :: rest, _ =>
    rw [hi, ← List.singleton_append, feed_append] at h
    obtain ⟨y, hy, -⟩ := Option.bind_eq_some_iff.mp h
    refine ⟨({ x with task := y, inbox := rest }, []), Option.map_eq_some_iff.mpr ⟨y, ?_, ?_⟩⟩
    · rw [hx] at hy ⊢
      simp only [hi, List.take_succ_cons, List.take_zero, Task.step]
      rw [if_pos ⟨by simp, by simp; omega⟩]
      exact hy
    · simp [hi]

/-- A party with something left to do, other than to wait, can move. -/
theorem exists_move {x : Party S α} {acts : List Act} (h : Does O x.asked x.task acts m p)
    (hw : ¬ Waiting acts) : ∃ mv r, x.move O mv = some r := by
  match acts, h with
  | [], _ => exact absurd trivial hw
  | .recv bs :: _, _ => exact absurd trivial hw
  | .send bs :: acts, ⟨hne, t, k, ht, _⟩ =>
    refine ⟨.send bs, ⟨_, bs⟩, Option.map_eq_some_iff.mpr ⟨k (.inl (.ok ())), ?_, rfl⟩⟩
    rw [ht]
    simp only [Task.step]
    rw [if_pos ⟨hne, List.prefix_rfl⟩, if_pos trivial]
  | .silent :: acts, ⟨k', y, hy, _⟩ =>
    exact ⟨.silent, ⟨{ x with task := y, asked := k' }, []⟩,
      Option.map_eq_some_iff.mpr ⟨(k', y), hy, rfl⟩⟩

/-- Of two dual parties one does not wait, unless both are at their end. -/
theorem Dual.not_waiting {l r : List Act} (h : Dual l r) :
    (l = [] ∧ r = []) ∨ ¬ Waiting l ∨ ¬ Waiting r := by
  cases h with
  | nil => exact .inl ⟨rfl, rfl⟩
  | leftSend _ => exact .inr (.inl (by simp [Waiting]))
  | rightSend _ => exact .inr (.inr (by simp [Waiting]))
  | leftSilent _ _ => exact .inr (.inl (by simp [Waiting]))
  | rightSilent _ _ => exact .inr (.inr (by simp [Waiting]))

/-- **Without a next step both parties are at their end**, and the channels are empty. -/
theorem InStep.stuck (h : InStep O P m p n q d) (hs : ∀ e, d.step O P e = none) :
    d.left = ⟨p, [], m⟩ ∧ d.right = ⟨q, [], n⟩ := by
  have hl : ∀ mv, d.left.move O mv = none := fun mv => Option.map_eq_none_iff.mp (hs (.inl mv))
  have hr : ∀ mv, d.right.move P mv = none := fun mv => Option.map_eq_none_iff.mp (hs (.inr mv))
  obtain ⟨p', q', l, r, hp, hq, hdl, hdr, hdual⟩ := h
  -- what is on the way can be read, so nothing is
  have hnl : d.left.inbox = [] := by
    by_contra hne
    obtain ⟨x, hx⟩ := exists_recv (O := O) hp hne
    rw [hl] at hx
    simp at hx
  have hnr : d.right.inbox = [] := by
    by_contra hne
    obtain ⟨x, hx⟩ := exists_recv (O := P) hq hne
    rw [hr] at hx
    simp at hx
  rw [hnl, feed_nil] at hp
  rw [hnr, feed_nil] at hq
  rw [← Option.some.inj hp] at hdl
  rw [← Option.some.inj hq] at hdr
  -- a party that does not wait can move; of two dual ones that is one of them
  rcases hdual.not_waiting with ⟨rfl, rfl⟩ | hw | hw
  · refine ⟨?_, ?_⟩
    · rw [← hdl.1, ← hdl.2, ← hnl]
    · rw [← hdr.1, ← hdr.2, ← hnr]
  · obtain ⟨mv, x, hx⟩ := exists_move hdl hw
    rw [hl] at hx
    simp at hx
  · obtain ⟨mv, x, hx⟩ := exists_move hdr hw
    rw [hr] at hx
    simp at hx

/--
**Dual parties agree.** Started with empty channels, they can only get stuck where both are at
the end of what they do.
-/
theorem stuck_eq {p₀ : Task S α} {q₀ : Task T β} {l r : List Act} (hl : Does O 0 p₀ l m p)
    (hr : Does P 0 q₀ r n q) (hdual : Dual l r) (hp : Halted O m p) (hq : Halted P n q)
    {es : List (Move ⊕ Move)} (hrun : run (Duplex.step O P) ⟨⟨p₀, [], 0⟩, ⟨q₀, [], 0⟩⟩ es = some d)
    (hs : ∀ e, d.step O P e = none) : d.left = ⟨p, [], m⟩ ∧ d.right = ⟨q, [], n⟩ := by
  have hinit : InStep O P m p n q ⟨⟨p₀, [], 0⟩, ⟨q₀, [], 0⟩⟩ :=
    ⟨p₀, q₀, l, r, rfl, rfl, hl, hr, hdual⟩
  exact (run_invariant (fun _ _ _ hi he => InStep.step hi hp hq he) hinit hrun).stuck hs

end Duplex

end Infra.Task
