import Mathlib.Data.List.Forall2

/-!
# Validators that stop at the first invalid key

A validator looks at the keys of a record one after another and returns at the first that is
invalid. `Checks` says this of a whole validator, and `Checks.bind` adds one key.

* `Checks.ok_iff` : it succeeds when every key is valid
* `Checks.error_iff` : else its error is about the first key that is not
* `mapM_eq_ok_iff` : a list is read element by element
-/

namespace Infra

namespace Validation

universe u

variable {κ ε : Type*} {α β : Type u}

/-! ## The first invalid key -/

/-- `key` is invalid and the keys before it are valid. -/
def FirstInvalid (valid : κ → Prop) (keys : List κ) (key : κ) : Prop :=
  ∃ before after, keys = before ++ key :: after ∧ (∀ k ∈ before, valid k) ∧ ¬valid key

section FirstInvalid

variable {valid : κ → Prop} {keys : List κ} {key other : κ}

theorem FirstInvalid.mem (h : FirstInvalid valid keys key) : key ∈ keys := by
  obtain ⟨before, after, rfl, -, -⟩ := h
  simp

theorem FirstInvalid.not_valid (h : FirstInvalid valid keys key) : ¬valid key := by
  obtain ⟨before, after, -, -, hkey⟩ := h
  exact hkey

theorem FirstInvalid.head (h : ¬valid key) : FirstInvalid valid (key :: keys) key :=
  ⟨[], keys, rfl, by simp, h⟩

theorem FirstInvalid.cons (hkey : valid key) (h : FirstInvalid valid keys other) :
    FirstInvalid valid (key :: keys) other := by
  obtain ⟨before, after, rfl, hbefore, hother⟩ := h
  refine ⟨key :: before, after, rfl, ?_, hother⟩
  intro k hk
  rcases List.mem_cons.mp hk with rfl | hk
  · exact hkey
  · exact hbefore k hk

/-- The first invalid key, by the head of the list. -/
theorem firstInvalid_cons_iff : FirstInvalid valid (key :: keys) other ↔
    (other = key ∧ ¬valid key) ∨ (valid key ∧ FirstInvalid valid keys other) := by
  constructor
  · rintro ⟨before, after, hsplit, hbefore, hother⟩
    cases before with
    | nil =>
      obtain ⟨rfl, -⟩ := List.cons.inj hsplit
      exact .inl ⟨rfl, hother⟩
    | cons k before =>
      obtain ⟨rfl, hrest⟩ := List.cons.inj hsplit
      refine .inr ⟨hbefore _ List.mem_cons_self, before, after, hrest, ?_, hother⟩
      intro j hj
      exact hbefore j (List.mem_cons_of_mem _ hj)
  · rintro (⟨rfl, hkey⟩ | ⟨hkey, hrest⟩)
    · exact .head hkey
    · exact .cons hkey hrest

/-- There is one first invalid key at most. -/
theorem FirstInvalid.unique (h : FirstInvalid valid keys key) (h' : FirstInvalid valid keys other) :
    key = other := by
  induction keys with
  | nil => exact absurd h.mem (by simp)
  | cons k keys ih =>
    rcases firstInvalid_cons_iff.mp h with ⟨rfl, hk⟩ | ⟨hk, h⟩
    · rcases firstInvalid_cons_iff.mp h' with ⟨rfl, -⟩ | ⟨hk', -⟩
      · rfl
      · exact absurd hk' hk
    · rcases firstInvalid_cons_iff.mp h' with ⟨rfl, hk'⟩ | ⟨-, h'⟩
      · exact absurd hk hk'
      · exact ih h h'

end FirstInvalid

/-! ## Validators -/

/--
The result `r` of a validator that looks at `keys` in this order: a value with `post`, or an
error that is about the first invalid key.
-/
structure Checks (valid : κ → Prop) (about : ε → κ → Prop) (keys : List κ) (r : Except ε α)
    (post : α → Prop) : Prop where
  of_ok : ∀ {a}, r = .ok a → (∀ key ∈ keys, valid key) ∧ post a
  of_error : ∀ {e}, r = .error e → ∃ key, FirstInvalid valid keys key ∧ about e key

section Checks

variable {valid : κ → Prop} {about : ε → κ → Prop} {keys : List κ} {key : κ} {r : Except ε α}
  {post : α → Prop}

theorem Checks.pure {a : α} (h : post a) : Checks valid about [] (Pure.pure a) post where
  of_ok heq := by
    rw [← Except.ok.inj heq]
    exact ⟨by simp, h⟩
  of_error heq := by cases heq

/-- One check, then the others. -/
theorem Checks.bind {f : α → Except ε β} {post' : β → Prop}
    (h : Checks valid about [key] r post)
    (hrest : ∀ a, post a → Checks valid about keys (f a) post') :
    Checks valid about (key :: keys) (r >>= f) post' := by
  cases r with
  | error e =>
    constructor
    · intro b heq
      cases heq
    · intro e' heq
      obtain ⟨k, hfirst, habout⟩ := h.of_error rfl
      obtain rfl := List.mem_singleton.mp hfirst.mem
      rw [← Except.error.inj heq]
      exact ⟨k, .head hfirst.not_valid, habout⟩
  | ok a =>
    obtain ⟨hvalid, hpost⟩ := h.of_ok rfl
    have hkey : valid key := hvalid key List.mem_cons_self
    constructor
    · intro b heq
      obtain ⟨hkeys, hb⟩ := (hrest a hpost).of_ok heq
      exact ⟨List.forall_mem_cons.mpr ⟨hkey, hkeys⟩, hb⟩
    · intro e heq
      obtain ⟨k, hfirst, habout⟩ := (hrest a hpost).of_error heq
      exact ⟨k, hfirst.cons hkey, habout⟩

/-- A check of one key that fails when the key is invalid. -/
theorem Checks.one (hvalid : (∃ a, r = .ok a) ↔ valid key) (hpost : ∀ a, r = .ok a → post a)
    (habout : ∀ e, r = .error e → about e key) : Checks valid about [key] r post where
  of_ok {a} heq := by
    refine ⟨?_, hpost a heq⟩
    intro k hk
    rw [List.mem_singleton.mp hk]
    exact hvalid.mp ⟨a, heq⟩
  of_error {e} heq := by
    refine ⟨key, .head ?_, habout e heq⟩
    intro hkey
    obtain ⟨a, ha⟩ := hvalid.mpr hkey
    rw [ha] at heq
    cases heq

/-- An early return. -/
theorem Checks.guard {bad : Prop} [Decidable bad] {a : α} {e : ε} (hvalid : ¬bad ↔ valid key)
    (hpost : post a) (habout : about e key) :
    Checks valid about [key] (if bad then .error e else .ok a) post := by
  by_cases hbad : bad
  · rw [if_pos hbad]
    refine .one ?_ ?_ ?_
    · rw [← hvalid]
      constructor
      · rintro ⟨a', ha'⟩
        cases ha'
      · intro hnot
        exact absurd hbad hnot
    · intro a' ha'
      cases ha'
    · intro e' he'
      rw [← Except.error.inj he']
      exact habout
  · rw [if_neg hbad]
    refine .one ⟨fun _ => hvalid.mp hbad, fun _ => ⟨a, rfl⟩⟩ ?_ ?_
    · intro a' ha'
      rw [← Except.ok.inj ha']
      exact hpost
    · intro e' he'
      cases he'

/-- **The checks pass** when all keys are valid. -/
theorem Checks.ok_iff (h : Checks valid about keys r post) :
    (∃ a, r = .ok a) ↔ ∀ key ∈ keys, valid key := by
  constructor
  · rintro ⟨a, ha⟩
    exact (h.of_ok ha).1
  · intro hkeys
    cases r with
    | ok a => exact ⟨a, rfl⟩
    | error e =>
      obtain ⟨k, hfirst, -⟩ := h.of_error rfl
      exact absurd (hkeys k hfirst.mem) hfirst.not_valid

/-- Where an error is about one key only, it tells which key is the first invalid one. -/
theorem Checks.error_iff (h : Checks valid about keys r post)
    (hone : ∀ {e k k'}, about e k → about e k' → k = k') :
    (∃ e, r = .error e ∧ about e key) ↔ FirstInvalid valid keys key := by
  constructor
  · rintro ⟨e, he, habout⟩
    obtain ⟨k, hfirst, hk⟩ := h.of_error he
    rw [hone habout hk]
    exact hfirst
  · intro hfirst
    cases r with
    | ok a => exact absurd ((h.of_ok rfl).1 key hfirst.mem) hfirst.not_valid
    | error e =>
      obtain ⟨k, hk, habout⟩ := h.of_error rfl
      rw [hfirst.unique hk]
      exact ⟨e, rfl, habout⟩

end Checks

/-! ## Parts of a validator -/

/-- A missing value counts as its default. -/
theorem forall_mem_iff_getD {P : α → Prop} {value : Option α} (default : α) (h : P default) :
    (∀ a ∈ value, P a) ↔ P (value.getD default) := by
  cases value with
  | none => simpa using h
  | some a => simp

/-- Another error text does not make a success. -/
theorem mapError_eq_ok_iff {ε' : Type*} {r : Except ε α} {f : ε → ε'} {a : α} :
    r.mapError f = .ok a ↔ r = .ok a := by
  cases r with
  | ok b => simp [Except.mapError]
  | error e => simp [Except.mapError]

/-- An error text comes from an error. -/
theorem of_mapError_eq_error {ε' : Type*} {r : Except ε α} {f : ε → ε'} {e' : ε'}
    (h : r.mapError f = .error e') : ∃ e, r = .error e ∧ e' = f e := by
  cases r with
  | ok b => cases h
  | error e => exact ⟨e, rfl, (Except.error.inj h).symm⟩

theorem bind_eq_ok_iff {r : Except ε α} {f : α → Except ε β} {b : β} :
    (r >>= f) = .ok b ↔ ∃ a, r = .ok a ∧ f a = .ok b := by
  cases r with
  | ok a => simp [bind, Except.bind]
  | error e => simp [bind, Except.bind]

theorem bind_eq_error_iff {r : Except ε α} {f : α → Except ε β} {e : ε} :
    (r >>= f) = .error e ↔ r = .error e ∨ ∃ a, r = .ok a ∧ f a = .error e := by
  cases r with
  | ok a => simp [bind, Except.bind]
  | error e' => simp [bind, Except.bind]

/-- The results are those of the elements, in their order. -/
theorem mapM_eq_ok_iff {f : α → Except ε β} {as : List α} {bs : List β} :
    as.mapM f = .ok bs ↔ List.Forall₂ (fun a b => f a = .ok b) as bs := by
  induction as generalizing bs with
  | nil =>
    rw [List.mapM_nil, List.forall₂_nil_left_iff]
    exact ⟨fun h => (Except.ok.inj h).symm, fun h => h ▸ rfl⟩
  | cons a as ih =>
    rw [List.mapM_cons, bind_eq_ok_iff, List.forall₂_cons_left_iff]
    constructor
    · rintro ⟨b, hb, hrest⟩
      obtain ⟨bs', hbs', hcons⟩ := bind_eq_ok_iff.mp hrest
      exact ⟨b, bs', hb, ih.mp hbs', (Except.ok.inj hcons).symm⟩
    · rintro ⟨b, bs', hb, hbs', rfl⟩
      exact ⟨b, hb, bind_eq_ok_iff.mpr ⟨bs', ih.mpr hbs', rfl⟩⟩

/-- A traversal succeeds when every element does. -/
theorem exists_mapM_eq_ok_iff {f : α → Except ε β} {as : List α} :
    (∃ bs, as.mapM f = .ok bs) ↔ ∀ a ∈ as, ∃ b, f a = .ok b := by
  induction as with
  | nil => simpa using ⟨[], rfl⟩
  | cons a as ih =>
    rw [List.forall_mem_cons, ← ih]
    constructor
    · rintro ⟨bs, hbs⟩
      rw [List.mapM_cons] at hbs
      obtain ⟨b, hb, hrest⟩ := bind_eq_ok_iff.mp hbs
      obtain ⟨bs', hbs', -⟩ := bind_eq_ok_iff.mp hrest
      exact ⟨⟨b, hb⟩, bs', hbs'⟩
    · rintro ⟨⟨b, hb⟩, bs', hbs'⟩
      refine ⟨b :: bs', ?_⟩
      rw [List.mapM_cons, bind_eq_ok_iff]
      exact ⟨b, hb, bind_eq_ok_iff.mpr ⟨bs', hbs', rfl⟩⟩

/-- The error of the traversal is that of an element. -/
theorem of_mapM_eq_error {f : α → Except ε β} {as : List α} {e : ε} (h : as.mapM f = .error e) :
    ∃ a ∈ as, f a = .error e := by
  induction as with
  | nil => cases h
  | cons a as ih =>
    rw [List.mapM_cons] at h
    rcases bind_eq_error_iff.mp h with ha | ⟨b, -, hrest⟩
    · exact ⟨a, List.mem_cons_self, ha⟩
    · rcases bind_eq_error_iff.mp hrest with has | ⟨bs, -, hpure⟩
      · obtain ⟨a', hmem, ha'⟩ := ih has
        exact ⟨a', List.mem_cons_of_mem _ hmem, ha'⟩
      · cases hpure

end Validation

end Infra
