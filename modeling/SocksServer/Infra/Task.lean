import SocksServer.Infra.Bytes

/-!
# Async tasks over a byte stream

An `async fn` is modelled by what it does between two resumptions: a `Task` is either finished
or stands at one point where it needs something from outside.

* `read n` — `read_exact` of `n` more bytes of its stream
* `write bs` — `write_all` of the remaining bytes `bs`
* `await op` — any other future (a DNS lookup, a connect)
* `call c` — a synchronous effect. Nothing can interrupt the task there.

`timeout` (and likewise a `select!` with a cancellation branch) adds one more way to leave
every await point below it. A point below `t` such scopes can be left by `t` timers, so the
continuation takes either the answer or the number of the timer that fired.

A partial read or write leaves a task of the same kind: what is left of the `read`
remembers the bytes it has got in its continuation. So arbitrary fragmentation needs no
extra state (`feed`, `step`).
-/

namespace Infra

/-! ## I/O errors -/

inductive ErrorKind where
  | unexpectedEof
  | writeZero
  | connectionRefused
  | networkUnreachable
  | hostUnreachable
  | timedOut
  | other (code : Nat)
  deriving DecidableEq, Repr

structure IoError where
  kind : ErrorKind
  message : String
  deriving DecidableEq, Repr

/-- What `read_exact` reports when the stream ends inside the field. -/
def IoError.earlyEof : IoError := ⟨.unexpectedEof, "early eof"⟩

/-! ## Tasks -/

/-- What a task can ask for besides its byte stream. -/
structure Sig where
  /-- Futures it can await. -/
  Op : Type
  Ret : Op → Type
  /-- Synchronous effects. -/
  Call : Type
  Res : Call → Type

/-- An async computation. `t` counts the timers that can fire at an await point. -/
inductive Task (S : Sig) (α : Type) : Type where
  | done (a : α)
  | read (n t : Nat) (k : Except IoError Bytes ⊕ Fin t → Task S α)
  | write (bs : Bytes) (t : Nat) (k : Except IoError Unit ⊕ Fin t → Task S α)
  | await (op : S.Op) (t : Nat) (k : S.Ret op ⊕ Fin t → Task S α)
  | call (c : S.Call) (k : S.Res c → Task S α)

namespace Task

variable {S : Sig} {α β γ ρ : Type}

def bind : Task S α → (α → Task S β) → Task S β
  | .done a, f => f a
  | .read n t k, f => .read n t fun r => (k r).bind f
  | .write bs t k, f => .write bs t fun r => (k r).bind f
  | .await op t k, f => .await op t fun r => (k r).bind f
  | .call c k, f => .call c fun r => (k r).bind f

instance : Monad (Task S) where
  pure := .done
  bind := bind

@[simp] theorem pure_eq (a : α) : (pure a : Task S α) = .done a := rfl

@[simp] theorem bind_eq (p : Task S α) (f : α → Task S β) : (p >>= f) = p.bind f := rfl

@[simp] theorem done_bind (a : α) (f : α → Task S β) : (done a : Task S α).bind f = f a := rfl

/-- Returning what a task returns changes nothing. -/
theorem bind_done (p : Task S α) : p.bind .done = p := by
  induction p with
  | done a => rfl
  | read n t k ih => simp only [bind, ih]
  | write bs t k ih => simp only [bind, ih]
  | await op t k ih => simp only [bind, ih]
  | call c k ih => simp only [bind, ih]

/-- Tasks one after the other can be grouped either way. -/
theorem bind_assoc (p : Task S α) (f : α → Task S β) (g : β → Task S γ) :
    (p.bind f).bind g = p.bind fun a => (f a).bind g := by
  induction p with
  | done a => rfl
  | read n t k ih => simp only [bind, ih]
  | write bs t k ih => simp only [bind, ih]
  | await op t k ih => simp only [bind, ih]
  | call c k ih => simp only [bind, ih]

instance : LawfulMonad (Task S) :=
  LawfulMonad.mk' _ (fun p => bind_done p) (fun _ _ => rfl) (fun p f g => bind_assoc p f g)

/-! ## Primitive tasks -/

/-- The answer of a point below no timer. -/
def answer : ρ ⊕ Fin 0 → ρ
  | .inl r => r
  | .inr i => i.elim0

/-- `read_exact` into a buffer of `n` bytes. An empty buffer is full at once. -/
def readExact (n : Nat) : Task S (Except IoError Bytes) :=
  if n = 0 then .done (.ok []) else .read n 0 fun r => .done (answer r)

/-- `write_all`. Nothing to write is done at once. -/
def writeAll (bs : Bytes) : Task S (Except IoError Unit) :=
  if bs = [] then .done (.ok ()) else .write bs 0 fun r => .done (answer r)

def awaitOp (op : S.Op) : Task S (S.Ret op) := .await op 0 fun r => .done (answer r)

def callOp (c : S.Call) : Task S (S.Res c) := .call c .done

/-! ## Timeouts -/

/-- Takes the outermost timer off: `none` when it is the one that fired. -/
def peel {t : Nat} : ρ ⊕ Fin (t + 1) → Option (ρ ⊕ Fin t)
  | .inl r => some (.inl r)
  | .inr i => if h : i.val < t then some (.inr ⟨i.val, h⟩) else none

/--
`timeout(limit, p)`, and `select!` of `p` with a cancellation branch: at every await
point of `p` the scope may be left with `none`. Synchronous calls cannot be interrupted.
-/
def timeout : Task S α → Task S (Option α)
  | .done a => .done (some a)
  | .read n t k => .read n (t + 1) fun r => (peel r).elim (.done none) fun r => (k r).timeout
  | .write bs t k => .write bs (t + 1) fun r => (peel r).elim (.done none) fun r => (k r).timeout
  | .await op t k => .await op (t + 1) fun r => (peel r).elim (.done none) fun r => (k r).timeout
  | .call c k => .call c fun r => (k r).timeout

/-! ## Steps -/

/-- What the surroundings can do to a task. -/
inductive Event (S : Sig) where
  /-- A read of the stream returned the bytes `c`. -/
  | received (c : Bytes)
  /-- End of stream or an I/O error while reading. -/
  | readFailed (e : IoError)
  /-- A write accepted the bytes `c`. -/
  | sent (c : Bytes)
  | writeFailed (e : IoError)
  /-- Timer `i` fired; scopes are counted from the inside. -/
  | elapsed (i : Nat)
  | answered (op : S.Op) (r : S.Ret op)
  | returned (c : S.Call) (r : S.Res c)

/-- Puts `c` in front of the bytes of a successful read. -/
def prepend {t : Nat} (c : Bytes) : Except IoError Bytes ⊕ Fin t → Except IoError Bytes ⊕ Fin t
  | .inl (.ok bs) => .inl (.ok (c ++ bs))
  | .inl (.error e) => .inl (.error e)
  | .inr i => .inr i

/-- The task after one more byte of its stream. `none` when it is not reading. -/
def recv : Task S α → UInt8 → Option (Task S α)
  | .read n t k, b =>
    if n = 0 then none
    else if n = 1 then some (k (.inl (.ok [b])))
    else some (.read (n - 1) t fun r => k (prepend [b] r))
  | _, _ => none

/-- The task after the bytes `c` of its stream. `none` when it stops reading before. -/
def feed (p : Task S α) : Bytes → Option (Task S α)
  | [] => some p
  | b :: c => (p.recv b).bind fun q => q.feed c

/-- The number of timers that can fire now. -/
def timers : Task S α → Nat
  | .done _ => 0
  | .read _ t _ => t
  | .write _ t _ => t
  | .await _ t _ => t
  | .call _ _ => 0

/-- No synchronous call is under way: the task stands at an await point or is finished. -/
def settled : Task S α → Bool
  | .call _ _ => false
  | _ => true

section Step

variable [DecidableEq S.Op] [DecidableEq S.Call]

/-- One event. `none` when the task does not wait for it. -/
def step : Task S α → Event S → Option (Task S α)
  | .read n t k, .received c =>
    if c ≠ [] ∧ c.length ≤ n then (Task.read n t k).feed c else none
  | .read _ _ k, .readFailed e => some (k (.inl (.error e)))
  | .read _ t k, .elapsed i => if h : i < t then some (k (.inr ⟨i, h⟩)) else none
  | .write bs t k, .sent c =>
    if c ≠ [] ∧ c <+: bs then
      if c = bs then some (k (.inl (.ok ()))) else some (.write (bs.drop c.length) t k)
    else none
  | .write _ _ k, .writeFailed e => some (k (.inl (.error e)))
  | .write _ t k, .elapsed i => if h : i < t then some (k (.inr ⟨i, h⟩)) else none
  | .await op _ k, .answered op' r =>
    if h : op' = op then some (k (.inl (h ▸ r))) else none
  | .await _ t k, .elapsed i => if h : i < t then some (k (.inr ⟨i, h⟩)) else none
  | .call c k, .returned c' r => if h : c' = c then some (k (h ▸ r)) else none
  | _, _ => none

end Step

/-! ## Reading a byte slice

`impl AsyncRead for &[u8]`: the bytes of the slice, then end of stream.
-/

/-- Runs the reads of a task on a slice. Returns where it stops and what is unread. -/
def decode : Task S α → Bytes → Task S α × Bytes
  | .read n _ k, input =>
    if n ≤ input.length then (k (.inl (.ok (input.take n)))).decode (input.drop n)
    else (k (.inl (.error .earlyEof))).decode []
  | .done a, input => (.done a, input)
  | .write bs t k, input => (.write bs t k, input)
  | .await op t k, input => (.await op t k, input)
  | .call c k, input => (.call c k, input)

/-! ## Running without a stream -/

/--
Runs a task whose surroundings are a state: `await` answers a future, `call` a call. `none`
when the task uses its stream.
-/
def eval {σ : Type} (await : (op : S.Op) → σ → S.Ret op × σ)
    (call : (c : S.Call) → σ → S.Res c × σ) : Task S α → σ → Option (α × σ)
  | .done a, s => some (a, s)
  | .await op _ k, s => (k (.inl (await op s).1)).eval await call (await op s).2
  | .call c k, s => (k (call c s).1).eval await call (call c s).2
  | .read _ _ _, _ => none
  | .write _ _ _, _ => none

theorem eval_awaitOp_bind {σ : Type} {await : (op : S.Op) → σ → S.Ret op × σ}
    {call : (c : S.Call) → σ → S.Res c × σ} (op : S.Op) (f : S.Ret op → Task S α) (s : σ) :
    ((awaitOp op).bind f).eval await call s =
      (f (await op s).1).eval await call (await op s).2 := rfl

end Task

end Infra
