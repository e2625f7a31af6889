set_option relaxedAutoImplicit false
set_option autoImplicit false

/-!
# Computations that may fail

A computation in `Except` succeeds just if each of its steps does, one after the other.

## Main results

* `LoxLex.bind_eq_ok_iff` — two steps in a row.
* `LoxLex.foldlM_concat_eq_ok_iff` — a step for each element of a list, of which the last one is
  taken apart.
-/

namespace LoxLex

variable {ε α β : Type}

/-- What follows a success goes on with its result. -/
@[simp] theorem ok_bind (a : α) (f : α → Except ε β) : (Except.ok a >>= f) = f a := rfl

/-- A result alone is a success. -/
@[simp] theorem pure_eq_ok (a : α) : (pure a : Except ε α) = .ok a := rfl

/-- What leads to a result has succeeded, and so has what follows it. -/
theorem bind_eq_ok_iff {x : Except ε α} {f : α → Except ε β} {b : β} :
    (x >>= f) = .ok b ↔ ∃ a, x = .ok a ∧ f a = .ok b := by
  cases x with
  | error e => simp [bind, Except.bind]
  | ok a => simp

/-- The last element is treated once the others are. -/
theorem foldlM_concat_eq_ok_iff {f : β → α → Except ε β} {elements : List α} {last : α} {b c : β} :
    (elements ++ [last]).foldlM f b = .ok c ↔
      ∃ a, elements.foldlM f b = .ok a ∧ f a last = .ok c := by
  simp only [List.foldlM_append, List.foldlM_cons, List.foldlM_nil, bind_eq_ok_iff, pure_eq_ok,
    Except.ok.injEq, exists_eq_right]

end LoxLex
