import SocksServer.Infra.Task

/-!
# Reading from a stream

How a task reads does not depend on how its input is cut into pieces.

* `feed_append` — feeding two pieces in turn is feeding their concatenation
* `feed_read` — the closed form of a partly or fully satisfied `read_exact`
* `feed_bind`, `feed_timeout` — feeding goes under `bind` and `timeout`
* `decode_append` — what a task does on a slice starts with what it does on a piece of it
* `decode_truncated` — a reader that hands I/O errors on reports one on every
  truncated message
-/

namespace Infra.Task

variable {S : Sig} {α β ε : Type}

/-! ## `prepend` -/

@[simp] theorem prepend_nil {t : Nat} (r : Except IoError Bytes ⊕ Fin t) : prepend [] r = r := by
  rcases r with (e | bs) | i <;> rfl

theorem prepend_prepend {t : Nat} (c d : Bytes) (r : Except IoError Bytes ⊕ Fin t) :
    prepend c (prepend d r) = prepend (c ++ d) r := by
  rcases r with (e | bs) | i
  · rfl
  · simp [prepend]
  · rfl

theorem peel_prepend {t : Nat} (c : Bytes) (r : Except IoError Bytes ⊕ Fin (t + 1)) :
    peel (prepend c r) = (peel r).map (prepend c) := by
  rcases r with (e | bs) | i
  · rfl
  · rfl
  · simp only [prepend, peel]
    split <;> rfl

/-! ## `feed` -/

@[simp] theorem feed_nil (p : Task S α) : p.feed [] = some p := rfl

/-- **Two pieces of input** are one. -/
theorem feed_append (p : Task S α) (c d : Bytes) :
    p.feed (c ++ d) = (p.feed c).bind fun q => q.feed d := by
  induction c generalizing p with
  | nil => rfl
  | cons b c ih =>
    rw [List.cons_append, feed, feed]
    cases p.recv b with
    | none => rfl
    | some q => exact ih q

/-- Fewer bytes than asked for: the rest of the read is still pending. -/
theorem feed_read_of_lt {n t : Nat} (k : Except IoError Bytes ⊕ Fin t → Task S α) {c : Bytes}
    (h : c.length < n) :
    (read n t k).feed c = some (.read (n - c.length) t fun r => k (prepend c r)) := by
  induction c generalizing n k with
  | nil => simp
  | cons b c ih =>
    have hlen : c.length + 1 < n := by simpa using h
    have hrecv : (read n t k).recv b = some (.read (n - 1) t fun r => k (prepend [b] r)) := by
      simp only [recv]
      rw [if_neg (by omega), if_neg (by omega)]
    rw [feed, hrecv, Option.bind_some, ih _ (by omega)]
    simp only [prepend_prepend, List.cons_append, List.nil_append, List.length_cons]
    rw [Nat.sub_sub, Nat.add_comm 1]

/-- Exactly the bytes asked for: the read is complete. -/
theorem feed_read {n t : Nat} (k : Except IoError Bytes ⊕ Fin t → Task S α) {c : Bytes}
    (h : c.length = n) (hn : n ≠ 0) : (read n t k).feed c = some (k (.inl (.ok c))) := by
  -- all but the last byte leave a read of one byte
  obtain ⟨c', b, rfl⟩ : ∃ c' b, c = c' ++ [b] := by
    rcases List.eq_nil_or_concat c with rfl | ⟨c', b, rfl⟩
    · simp at h; omega
    · exact ⟨c', b, by simp⟩
  have hlen : c'.length + 1 = n := by simpa using h
  rw [feed_append, feed_read_of_lt k (by omega)]
  simp only [Option.bind_some, feed, recv]
  rw [if_neg (by omega), if_pos (by omega)]
  simp [prepend]

/-- A task that takes another byte is reading. -/
theorem exists_read_of_feed {p q : Task S α} {c : Bytes} (hc : c ≠ []) (h : p.feed c = some q) :
    ∃ n t k, p = .read n t k ∧ n ≠ 0 := by
  match c, hc with
  | b :: c, _ =>
    rw [feed] at h
    cases p with
    | read n t k =>
      refine ⟨n, t, k, rfl, ?_⟩
      intro hn
      simp [recv, hn] at h
    | done a => simp [recv] at h
    | write bs t k => simp [recv] at h
    | await op t k => simp [recv] at h
    | call c k => simp [recv] at h

theorem recv_bind {p q : Task S α} {b : UInt8} (f : α → Task S β) (h : p.recv b = some q) :
    (p.bind f).recv b = some (q.bind f) := by
  cases p with
  | read n t k =>
    simp only [recv] at h
    simp only [bind, recv]
    split at h
    · simp at h
    · split at h
      · next h0 h1 => rw [if_neg h0, if_pos h1, ← Option.some.inj h]
      · next h0 h1 => rw [if_neg h0, if_neg h1, ← Option.some.inj h]; rfl
  | done a => simp [recv] at h
  | write bs t k => simp [recv] at h
  | await op t k => simp [recv] at h
  | call c k => simp [recv] at h

/-- A piece of input goes to the task that reads first. -/
theorem feed_bind {p q : Task S α} {c : Bytes} (f : α → Task S β) (h : p.feed c = some q) :
    (p.bind f).feed c = some (q.bind f) := by
  induction c generalizing p with
  | nil => rw [feed_nil] at h; rw [← Option.some.inj h]; rfl
  | cons b c ih =>
    rw [feed] at h
    cases hb : p.recv b with
    | none => rw [hb] at h; simp at h
    | some r =>
      rw [hb] at h
      rw [feed, recv_bind f hb]
      exact ih h

theorem recv_timeout {p q : Task S α} {b : UInt8} (h : p.recv b = some q) :
    p.timeout.recv b = some q.timeout := by
  cases p with
  | read n t k =>
    simp only [recv] at h
    simp only [timeout, recv]
    split at h
    · simp at h
    · split at h
      · next h0 h1 => rw [if_neg h0, if_pos h1, ← Option.some.inj h]; rfl
      · next h0 h1 =>
        rw [if_neg h0, if_neg h1, ← Option.some.inj h]
        simp only [timeout, Option.some.injEq, read.injEq, heq_eq_eq, true_and]
        funext r
        rw [peel_prepend]
        cases peel r <;> rfl
  | done a => simp [recv] at h
  | write bs t k => simp [recv] at h
  | await op t k => simp [recv] at h
  | call c k => simp [recv] at h

theorem feed_timeout {p q : Task S α} {c : Bytes} (h : p.feed c = some q) :
    p.timeout.feed c = some q.timeout := by
  induction c generalizing p with
  | nil => rw [feed_nil] at h; rw [← Option.some.inj h]; rfl
  | cons b c ih =>
    rw [feed] at h
    cases hb : p.recv b with
    | none => rw [hb] at h; simp at h
    | some r =>
      rw [hb] at h
      rw [feed, recv_timeout hb]
      exact ih h

/-! ## `readExact` -/

/-- Reading exactly what is there. -/
theorem feed_readExact (c : Bytes) :
    (readExact c.length : Task S _).feed c = some (.done (.ok c)) := by
  unfold readExact
  by_cases h : c = []
  · subst h; rfl
  · have hn : c.length ≠ 0 := by simpa using h
    rw [if_neg hn, feed_read _ rfl hn]
    rfl

/-- One step of a reader: `read_exact` and then the rest of the message. -/
theorem feed_readExact_bind {n : Nat} {c : Bytes} (h : c.length = n)
    (f : Except IoError Bytes → Task S α) (d : Bytes) :
    ((readExact n).bind f).feed (c ++ d) = (f (.ok c)).feed d := by
  subst h
  rw [feed_append, feed_bind f (feed_readExact c)]
  rfl

/-- Reading from a whole input: the field, or the end of the stream. -/
theorem decode_readExact (n : Nat) (input : Bytes) :
    (readExact n : Task S _).decode input =
      if n ≤ input.length then (.done (.ok (input.take n)), input.drop n)
      else (.done (.error .earlyEof), []) := by
  unfold readExact
  by_cases hn : n = 0
  · subst hn; simp [decode]
  · rw [if_neg hn, decode]
    split <;> rfl

/-! ## `decode` -/

/-- What one task leaves is for the next. -/
theorem decode_bind {p : Task S α} {a : α} {input rest : Bytes} (f : α → Task S β)
    (h : p.decode input = (.done a, rest)) : (p.bind f).decode input = (f a).decode rest := by
  induction p generalizing input with
  | done b =>
    simp only [decode, Prod.mk.injEq, done.injEq] at h
    rw [h.1, h.2]; rfl
  | read n t k ih =>
    simp only [decode] at h
    simp only [bind, decode]
    split at h
    · next hn => rw [if_pos hn]; exact ih _ h
    · next hn => rw [if_neg hn]; exact ih _ h
  | write bs t k => simp [decode] at h
  | await op t k => simp [decode] at h
  | call c k => simp [decode] at h

theorem decode_readExact_bind (n : Nat) (f : Except IoError Bytes → Task S α) (input : Bytes) :
    ((readExact n).bind f).decode input =
      if n ≤ input.length then (f (.ok (input.take n))).decode (input.drop n)
      else (f (.error .earlyEof)).decode [] := by
  have h := @decode_readExact S n input
  split at h
  · next hn => rw [if_pos hn, decode_bind f h]
  · next hn => rw [if_neg hn, decode_bind f h]

/-- A slice that starts with `c` is read like the rest of it after `c`. -/
theorem decode_append {p q : Task S α} {c : Bytes} (rest : Bytes) (h : p.feed c = some q) :
    p.decode (c ++ rest) = q.decode rest := by
  induction p generalizing c q with
  | read n t k ih =>
    by_cases hc : c = []
    · subst hc
      rw [feed_nil] at h
      rw [← Option.some.inj h]; rfl
    obtain ⟨n', t', k', he, hn⟩ := exists_read_of_feed hc h
    obtain ⟨rfl, rfl, hk⟩ := read.inj he
    by_cases hlt : c.length < n
    · -- `c` ends inside the read; `rest` completes it or is too short as well
      rw [feed_read_of_lt k hlt] at h
      rw [← Option.some.inj h]
      simp only [decode, List.length_append]
      by_cases hr : n ≤ c.length + rest.length
      · have htake : (c ++ rest).take n = c ++ rest.take (n - c.length) := by
          rw [List.take_append, List.take_of_length_le (by omega)]
        have hdrop : (c ++ rest).drop n = rest.drop (n - c.length) := by
          rw [List.drop_append, List.drop_eq_nil_of_le (by omega), List.nil_append]
        rw [if_pos hr, if_pos (by omega), htake, hdrop]
        rfl
      · rw [if_neg hr, if_neg (by omega)]
        rfl
    · -- the read is complete inside `c`; the rest of `c` goes to its continuation
      have hsplit : c = c.take n ++ c.drop n := (List.take_append_drop n c).symm
      have hlen : (c.take n).length = n := by simp; omega
      have hfeed : (k (.inl (.ok (c.take n)))).feed (c.drop n) = some q := by
        rw [hsplit, feed_append, feed_read k hlen hn] at h
        exact h
      have htake : (c ++ rest).take n = c.take n := by
        rw [List.take_append_of_le_length (by omega)]
      have hdrop : (c ++ rest).drop n = c.drop n ++ rest := by
        rw [List.drop_append_of_le_length (by omega)]
      rw [decode, if_pos (by simp; omega), htake, hdrop]
      exact ih _ hfeed
  | done a => cases c <;> simp_all [feed, recv]
  | write bs t k => cases c <;> simp_all [feed, recv]
  | await op t k => cases c <;> simp_all [feed, recv]
  | call s k => cases c <;> simp_all [feed, recv]

/-- A message that is read completely leaves exactly what follows it. -/
theorem decode_of_feed {p : Task S α} {a : α} {c : Bytes} (rest : Bytes)
    (h : p.feed c = some (.done a)) : p.decode (c ++ rest) = (.done a, rest) :=
  decode_append rest h

/-! ## Readers that hand I/O errors on -/

/-- Only reads, and a failed one ends the task with `err` of the error: the `?` operator. -/
def HandsOn (err : IoError → α) : Task S α → Prop
  | .done _ => True
  | .read n t k => n ≠ 0 ∧ t = 0 ∧ (∀ e, k (.inl (.error e)) = .done (err e)) ∧
    ∀ c, HandsOn err (k (.inl (.ok c)))
  | _ => False

theorem HandsOn.feed {err : IoError → α} {p q : Task S α} {c : Bytes} (hp : HandsOn err p)
    (h : p.feed c = some q) : HandsOn err q := by
  induction c generalizing p with
  | nil => rw [feed_nil] at h; rw [← Option.some.inj h]; exact hp
  | cons b c ih =>
    rw [Task.feed] at h
    cases hb : p.recv b with
    | none => rw [hb] at h; simp at h
    | some r =>
      rw [hb] at h
      refine ih ?_ h
      cases p with
      | read n t k =>
        simp only [recv] at hb
        split at hb
        · simp at hb
        · split at hb
          · rw [← Option.some.inj hb]; exact hp.2.2.2 _
          · rw [← Option.some.inj hb]
            exact ⟨by omega, hp.2.1, hp.2.2.1, fun d => hp.2.2.2 _⟩
      | done a => simp [recv] at hb
      | write bs t k => simp [recv] at hb
      | await op t k => simp [recv] at hb
      | call c k => simp [recv] at hb

/-- A field, and then a task that hands on its errors. -/
theorem HandsOn.readExact_bind {err : IoError → α} {n : Nat} {f : Except IoError Bytes → Task S α}
    (he : ∀ e, f (.error e) = .done (err e)) (hf : ∀ c, HandsOn err (f (.ok c))) :
    HandsOn err ((readExact n).bind f) := by
  unfold readExact
  split
  · exact hf []
  · next hn => exact ⟨hn, rfl, he, hf⟩

/-- **A truncated message is an I/O error.** Nothing else can come out of it. -/
theorem decode_truncated {err : IoError → α} {p q : Task S α} {c d : Bytes}
    (hp : HandsOn err p) (h : p.feed (c ++ d) = some q) (hd : d ≠ []) :
    p.decode c = (.done (err .earlyEof), []) := by
  rw [feed_append] at h
  cases hc : p.feed c with
  | none => rw [hc] at h; simp at h
  | some r =>
    rw [hc] at h
    -- something is missing after `c`, so the task stands at a read there
    obtain ⟨n, t, k, rfl, hn⟩ := exists_read_of_feed hd h
    have hr := (hp.feed hc).2.2.1
    have hdec := decode_append [] hc
    rw [List.append_nil] at hdec
    rw [hdec, decode, if_neg (by simp; omega), hr]
    rfl

/-! ## One event -/

section Step

variable [DecidableEq S.Op] [DecidableEq S.Call]

/-- A part of what is to be written is taken. -/
theorem step_sent {p p' : Task S α} {c : Bytes} (h : p.step (.sent c) = some p') :
    ∃ bs t k, p = .write bs t k ∧ c ≠ [] ∧ c <+: bs ∧
      p' = if c = bs then k (.inl (.ok ())) else .write (bs.drop c.length) t k := by
  cases p <;> simp only [Task.step, reduceCtorEq] at h
  case write bs t k =>
    refine ⟨bs, t, k, rfl, ?_⟩
    split at h
    · next hc =>
      refine ⟨hc.1, hc.2, ?_⟩
      split at h
      · next he => rw [if_pos he]; exact (Option.some.inj h).symm
      · next he => rw [if_neg he]; exact (Option.some.inj h).symm
    · simp at h

theorem step_received {p p' : Task S α} {c : Bytes} (h : p.step (.received c) = some p') :
    p.feed c = some p' := by
  cases p <;> simp only [Task.step, reduceCtorEq] at h
  case read n t k =>
    split at h
    · exact h
    · simp at h

end Step

end Infra.Task
