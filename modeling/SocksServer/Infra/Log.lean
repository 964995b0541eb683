import Mathlib.Data.List.Basic

/-!
# Logs

A log lists what has happened, newest last. `Each P log` says that `P before x` holds of every
entry `x`, where `before` is what stands in front of it.
-/

namespace Infra

variable {α : Type} {P : List α → α → Prop} {log : List α} {x : α}

def Each (P : List α → α → Prop) (log : List α) : Prop :=
  ∀ before x after, log = before ++ x :: after → P before x

/-- An entry of a longer log is the new one or was there before. -/
theorem concat_eq_append_cons {before after : List α} {y : α}
    (h : log ++ [x] = before ++ y :: after) :
    (before = log ∧ y = x ∧ after = []) ∨
      ∃ init, after = init ++ [x] ∧ log = before ++ y :: init := by
  rcases List.eq_nil_or_concat after with rfl | ⟨init, last, rfl⟩
  · obtain ⟨hlog, hlast⟩ := List.append_inj' h rfl
    exact .inl ⟨hlog.symm, (List.cons.inj hlast).1.symm, rfl⟩
  · have h' : log ++ [x] = (before ++ y :: init) ++ [last] := by
      rw [h]
      simp
    obtain ⟨hlog, hlast⟩ := List.append_inj' h' rfl
    exact .inr ⟨init, by rw [(List.cons.inj hlast).1, List.concat_eq_append], hlog⟩

namespace Each

theorem nil : Each P [] := by
  intro before x after h
  simp at h

theorem concat (h : Each P log) (hx : P log x) : Each P (log ++ [x]) := by
  intro before y after he
  rcases concat_eq_append_cons he with ⟨rfl, rfl, -⟩ | ⟨init, -, hlog⟩
  · exact hx
  · exact h before y init hlog

end Each

end Infra
