/-
Module: EE323.Lib.Run
Purpose: Labelled runs of a partial step function. Every step of a run meets a guard, so one
  definition covers the unrestricted runs of a machine and the runs that stay inside a stated
  condition. An executable scheduler produces runs for concrete inputs.
Main exports: Run, Run.invariant, Run.invariant_with, Run.mono, Passed, exec, exec_reaches
-/

namespace EE323.Lib

variable {σ α : Type _} {step : σ → α → Option σ} {guard : σ → α → Prop}

/-- `Run step guard s labels t`: the labels lead from `s` to `t`, and every step taken on the way
meets the guard in the state it starts from. -/
inductive Run (step : σ → α → Option σ) (guard : σ → α → Prop) :
    σ → List α → σ → Prop where
  | refl (start : σ) : Run step guard start [] start
  | snoc {start middle finish : σ} {labels : List α} {label : α}
      (before : Run step guard start labels middle)
      (admitted : guard middle label)
      (stepped : step middle label = some finish) :
      Run step guard start (labels ++ [label]) finish

/-- The guard that admits every step. -/
def anyStep (_ : σ) (_ : α) : Prop := True

instance (state : σ) (label : α) : Decidable (anyStep state label) :=
  inferInstanceAs (Decidable True)

namespace Run

/-- The invariant rule: what holds initially and survives every admitted step holds at the end of
every run. -/
theorem invariant {Inv : σ → Prop} {start finish : σ} {labels : List α}
    (run : Run step guard start labels finish) (initially : Inv start)
    (preserved : ∀ {s a t}, Inv s → guard s a → step s a = some t → Inv t) :
    Inv finish := by
  induction run with
  | refl => exact initially
  | snoc before admitted stepped inductionHypothesis =>
      exact preserved inductionHypothesis admitted stepped

/-- The layered invariant rule: an invariant may be preserved only with the help of a fact already
known of every state reached. -/
theorem invariant_with {Known Inv : σ → Prop} {start finish : σ} {labels : List α}
    (run : Run step guard start labels finish)
    (known : ∀ {labels t}, Run step guard start labels t → Known t)
    (initially : Inv start)
    (preserved : ∀ {s a t}, Known s → Known t → Inv s → guard s a → step s a = some t → Inv t) :
    Inv finish := by
  induction run with
  | refl => exact initially
  | snoc before admitted stepped inductionHypothesis =>
      exact preserved (known before) (known (.snoc before admitted stepped))
        inductionHypothesis admitted stepped

/-- A run under a guard is a run under every weaker guard. -/
theorem mono {weaker : σ → α → Prop} {start finish : σ} {labels : List α}
    (run : Run step guard start labels finish)
    (weaken : ∀ {s a}, guard s a → weaker s a) :
    Run step weaker start labels finish := by
  induction run with
  | refl => exact .refl _
  | snoc before admitted stepped inductionHypothesis =>
      exact .snoc inductionHypothesis (weaken admitted) stepped

/-- Every step of a run takes one of its labels. -/
theorem labelled {start finish : σ} {labels : List α}
    (run : Run step guard start labels finish) :
    Run step (fun state label => guard state label ∧ label ∈ labels) start labels finish := by
  induction run with
  | refl => exact .refl _
  | snoc before admitted stepped inductionHypothesis =>
      refine .snoc (inductionHypothesis.mono ?_) ⟨admitted, ?_⟩ stepped
      · exact fun both => ⟨both.1, List.mem_append_left _ both.2⟩
      · exact List.mem_append_right _ List.mem_cons_self

/-- Runs compose. -/
theorem trans {start middle finish : σ} {first second : List α}
    (one : Run step guard start first middle) (two : Run step guard middle second finish) :
    Run step guard start (first ++ second) finish := by
  induction two with
  | refl => simpa using one
  | snoc before admitted stepped inductionHypothesis =>
      rw [← List.append_assoc]
      exact .snoc inductionHypothesis admitted stepped

end Run

/-- The labels lead from `start` to `finish` through a step of the given kind. -/
def Passed (step : σ → α → Option σ) (guard : σ → α → Prop) (kind : σ → α → σ → Prop)
    (start : σ) (labels : List α) (finish : σ) : Prop :=
  ∃ (earlier later : List α) (label : α) (before after : σ),
    labels = earlier ++ label :: later ∧ Run step guard start earlier before ∧
      step before label = some after ∧ kind before label after ∧
      Run step guard after later finish

namespace Passed

variable {kind : σ → α → σ → Prop} {start middle finish : σ} {labels : List α} {label : α}

theorem snoc (passed : Passed step guard kind start labels middle) (admitted : guard middle label)
    (stepped : step middle label = some finish) :
    Passed step guard kind start (labels ++ [label]) finish := by
  obtain ⟨earlier, later, other, before, after, rfl, run, taken, isKind, rest⟩ := passed
  exact ⟨earlier, later ++ [label], other, before, after, by simp, run, taken, isKind,
    .snoc rest admitted stepped⟩

theorem last (run : Run step guard start labels middle) (stepped : step middle label = some finish)
    (isKind : kind middle label finish) :
    Passed step guard kind start (labels ++ [label]) finish :=
  ⟨labels, [], label, middle, finish, rfl, run, stepped, isKind, .refl _⟩

end Passed

/-- Execute a list of labels, stopping where a step is refused by the guard or undefined. -/
def exec (step : σ → α → Option σ) (guard : σ → α → Prop)
    [∀ state label, Decidable (guard state label)] : σ → List α → Option σ
  | state, [] => some state
  | state, label :: rest =>
      if guard state label then
        match step state label with
        | some next => exec step guard next rest
        | none => none
      else none

private theorem run_of_exec_aux [∀ state label, Decidable (guard state label)]
    {start middle finish : σ} {before labels : List α}
    (prior : Run step guard start before middle)
    (executed : exec step guard middle labels = some finish) :
    Run step guard start (before ++ labels) finish := by
  induction labels generalizing middle before with
  | nil =>
      cases executed
      simpa using prior
  | cons label rest inductionHypothesis =>
      simp only [exec] at executed
      split at executed
      · rename_i admitted
        split at executed
        · rename_i next stepped
          have extended := inductionHypothesis (.snoc prior admitted stepped) executed
          simpa using extended
        · cases executed
      · cases executed

/-- What the executable scheduler reaches, a run reaches. -/
theorem Run.of_exec [∀ state label, Decidable (guard state label)]
    {start finish : σ} {labels : List α}
    (executed : exec step guard start labels = some finish) :
    Run step guard start labels finish := by
  simpa using run_of_exec_aux (.refl start) executed

/-- A concrete schedule reaches a state with a decidable property. -/
theorem exec_reaches [∀ state label, Decidable (guard state label)] {start : σ} {labels : List α}
    (Good : σ → Prop) [DecidablePred Good]
    (checked : (exec step guard start labels).any (fun state => decide (Good state)) = true) :
    ∃ finish, Run step guard start labels finish ∧ Good finish := by
  cases executed : exec step guard start labels with
  | none => simp [executed] at checked
  | some finish =>
      rw [executed] at checked
      exact ⟨finish, Run.of_exec executed, by simpa using checked⟩

end EE323.Lib
