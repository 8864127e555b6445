/-
Module: EE323.Lib.Ensures
Purpose: Partial correctness of operations that may fail.  An operation ensures a postcondition when
  its result meets it, and fails only in ways that are allowed.
Main exports: bind_eq_ok, Ensures, Ensures.bind, Ensures.mono
-/

namespace EE323.Lib

variable {ε α β : Type _} {allowed : ε → Prop} {post : α → Prop} {after : β → Prop}

/-- A sequence of two operations returns exactly when both do. -/
theorem bind_eq_ok {first : Except ε α} {next : α → Except ε β} {result : β} :
    first >>= next = .ok result ↔ ∃ middle, first = .ok middle ∧ next middle = .ok result := by
  cases first <;> simp [bind, Except.bind]

/-- The operation returns a result that meets the postcondition, or fails in an allowed way. -/
inductive Ensures (allowed : ε → Prop) (post : α → Prop) : Except ε α → Prop where
  | ok {result : α} (holds : post result) : Ensures allowed post (.ok result)
  | error {fault : ε} (isAllowed : allowed fault) : Ensures allowed post (.error fault)

namespace Ensures

/-- The sequencing rule. -/
theorem bind {first : Except ε α} {next : α → Except ε β} (one : Ensures allowed post first)
    (two : ∀ result, post result → Ensures allowed after (next result)) :
    Ensures allowed after (first >>= next) := by
  cases one with
  | ok holds => exact two _ holds
  | error isAllowed => exact .error isAllowed

/-- The rule of consequence. -/
theorem mono {milder : ε → Prop} {weaker : α → Prop} {operation : Except ε α}
    (ensures : Ensures allowed post operation) (permit : ∀ fault, allowed fault → milder fault)
    (weaken : ∀ result, post result → weaker result) : Ensures milder weaker operation := by
  cases ensures with
  | ok holds => exact .ok (weaken _ holds)
  | error isAllowed => exact .error (permit _ isAllowed)

/-- What is known of every result may be added. -/
theorem strengthen {stronger : α → Prop} {operation : Except ε α}
    (ensures : Ensures allowed post operation)
    (known : ∀ result, operation = .ok result → stronger result) :
    Ensures allowed stronger operation := by
  cases ensures with
  | ok _ => exact .ok (known _ rfl)
  | error isAllowed => exact .error isAllowed

theorem allowed_of_error {fault : ε} (ensures : Ensures allowed post (.error fault)) :
    allowed fault := by
  cases ensures with
  | error isAllowed => exact isAllowed

theorem post_of_ok {result : α} (ensures : Ensures allowed post (.ok result)) : post result := by
  cases ensures with
  | ok holds => exact holds

end Ensures

end EE323.Lib
