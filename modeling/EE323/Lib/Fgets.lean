/-
Module: EE323.Lib.Fgets
Purpose: Reading a text with calls that return at most a fixed number of elements and stop behind a
  newline, and the lines of a text.  A line that is longer than the limit is returned in several
  pieces, and every line starts with a call of its own.
Main exports: fgets, fgetsAll, fgets_cases, fgets_induction, fgets_long, fgets_line,
  flatten_fgetsAll, fgetsAll_line, linesOf, lines_induction, fgetsAll_short
-/
import Mathlib.Data.List.TakeWhile

namespace EE323.Lib

variable {α : Type _} [DecidableEq α]

/-- One call: the elements up to the newline, at most `limit` of them, and what is left. -/
def fgets (newline : α) : Nat → List α → List α × List α
  | 0, input => ([], input)
  | _ + 1, [] => ([], [])
  | limit + 1, first :: rest =>
      if first = newline then ([first], rest)
      else
        let (line, left) := fgets newline limit rest
        (first :: line, left)

/-- The results of all calls until the end of the input, with fuel for the number of calls. -/
def fgetsFuel (newline : α) (limit : Nat) : Nat → List α → List (List α)
  | 0, _ => []
  | _ + 1, [] => []
  | fuel + 1, input =>
      let (line, left) := fgets newline limit input
      line :: fgetsFuel newline limit fuel left

/-- The results of all calls: no more are needed than there are elements. -/
def fgetsAll (newline : α) (limit : Nat) (input : List α) : List (List α) :=
  fgetsFuel newline limit input.length input

variable {newline : α} {limit : Nat}

/-! ### One call -/

theorem fgets_append (newline : α) (limit : Nat) (input : List α) :
    (fgets newline limit input).1 ++ (fgets newline limit input).2 = input := by
  induction limit generalizing input with
  | zero => rfl
  | succ limit inductionHypothesis =>
      cases input with
      | nil => rfl
      | cons first rest =>
          unfold fgets
          split
          · rfl
          · exact congrArg (first :: ·) (inductionHypothesis rest)

/-- A call returns something as long as there is something. -/
theorem fgets_ne_nil (positive : 0 < limit) {input : List α} (nonempty : input ≠ []) :
    (fgets newline limit input).1 ≠ [] := by
  obtain ⟨first, rest, rfl⟩ := List.exists_cons_of_ne_nil nonempty
  obtain ⟨fewer, rfl⟩ : ∃ fewer, limit = fewer + 1 := ⟨limit - 1, by omega⟩
  unfold fgets
  split <;> simp

/-- What a call returns has a newline at its end or nowhere. -/
theorem fgets_cases (newline : α) (limit : Nat) (input : List α) :
    newline ∉ (fgets newline limit input).1 ∨
      ∃ line, (fgets newline limit input).1 = line ++ [newline] ∧ newline ∉ line := by
  induction limit generalizing input with
  | zero => exact .inl List.not_mem_nil
  | succ limit inductionHypothesis =>
      cases input with
      | nil => exact .inl List.not_mem_nil
      | cons first rest =>
          unfold fgets
          split
          next isNewline => exact .inr ⟨[], by rw [isNewline]; rfl, List.not_mem_nil⟩
          next notFirst =>
            rcases inductionHypothesis rest with noNewline | ⟨line, ends, noNewline⟩
            · exact .inl (List.not_mem_cons_of_ne_of_not_mem (Ne.symm notFirst) noNewline)
            · refine .inr ⟨first :: line, congrArg (first :: ·) ends, ?_⟩
              exact List.not_mem_cons_of_ne_of_not_mem (Ne.symm notFirst) noNewline

theorem length_fgets_left (positive : 0 < limit) {input : List α} (nonempty : input ≠ []) :
    (fgets newline limit input).2.length < input.length := by
  have parts := congrArg List.length (fgets_append newline limit input)
  have some := List.length_pos_iff.mpr (@fgets_ne_nil α _ newline limit positive input nonempty)
  rw [List.length_append] at parts
  omega

/-- Induction along the calls, from what a call leaves to what it found. -/
@[elab_as_elim]
theorem fgets_induction (newline : α) (positive : 0 < limit) {motive : List α → Prop}
    (nil : motive [])
    (call : ∀ input, input ≠ [] → motive (fgets newline limit input).2 → motive input)
    (input : List α) : motive input := by
  induction length : input.length using Nat.strong_induction_on generalizing input with
  | _ total inductionHypothesis =>
      by_cases nonempty : input = []
      · rw [nonempty]
        exact nil
      · have shorter := @length_fgets_left α _ newline limit positive input nonempty
        exact call input nonempty (inductionHypothesis _ (length ▸ shorter) _ rfl)

/-- A line that is too long is returned as far as the limit goes. -/
theorem fgets_long {line : List α} (rest : List α) (noNewline : newline ∉ line)
    (long : limit ≤ line.length) :
    fgets newline limit (line ++ rest) = (line.take limit, line.drop limit ++ rest) := by
  induction limit generalizing line with
  | zero => rfl
  | succ limit inductionHypothesis =>
      cases line with
      | nil => exact absurd long (by simp)
      | cons first others =>
          have notFirst : first ≠ newline :=
            fun same => noNewline (by rw [same]; exact List.mem_cons_self)
          have notOthers : newline ∉ others :=
            fun member => noNewline (List.mem_cons_of_mem _ member)
          show fgets newline (limit + 1) (first :: (others ++ rest)) = _
          unfold fgets
          rw [if_neg notFirst, inductionHypothesis notOthers (Nat.le_of_succ_le_succ long)]
          rfl

/-- A line that is short enough is returned with its newline. -/
theorem fgets_line {line : List α} (rest : List α) (noNewline : newline ∉ line)
    (short : line.length < limit) :
    fgets newline limit (line ++ newline :: rest) = (line ++ [newline], rest) := by
  obtain ⟨fewer, rfl⟩ : ∃ fewer, limit = fewer + 1 := ⟨limit - 1, by omega⟩
  induction line generalizing fewer with
  | nil =>
      show fgets newline (fewer + 1) (newline :: rest) = _
      unfold fgets
      rw [if_pos rfl]
      rfl
  | cons first others inductionHypothesis =>
      have notFirst : first ≠ newline :=
        fun same => noNewline (by rw [same]; exact List.mem_cons_self)
      have notOthers : newline ∉ others := fun member => noNewline (List.mem_cons_of_mem _ member)
      simp only [List.length_cons] at short
      obtain ⟨less, rfl⟩ : ∃ less, fewer = less + 1 := ⟨fewer - 1, by omega⟩
      show fgets newline (less + 1 + 1) (first :: (others ++ newline :: rest)) = _
      unfold fgets
      rw [if_neg notFirst, inductionHypothesis notOthers less (by omega)]
      rfl

/-! ### All calls -/

theorem fgetsFuel_eq (positive : 0 < limit) {fuel : Nat} {input : List α}
    (enough : input.length ≤ fuel) :
    fgetsFuel newline limit fuel input = fgetsAll newline limit input := by
  have stable (one two : Nat) (input : List α) (oneEnough : input.length ≤ one)
      (twoEnough : input.length ≤ two) :
      fgetsFuel newline limit one input = fgetsFuel newline limit two input := by
    induction one generalizing input two with
    | zero =>
        rw [List.length_eq_zero_iff.mp (Nat.le_zero.mp oneEnough)]
        cases two <;> rfl
    | succ one inductionHypothesis =>
        cases input with
        | nil => cases two <;> rfl
        | cons first rest =>
            have fewer := @length_fgets_left α _ newline limit positive (first :: rest) (by simp)
            obtain ⟨less, rfl⟩ : ∃ less, two = less + 1 :=
              ⟨two - 1, by simp only [List.length_cons] at twoEnough; omega⟩
            unfold fgetsFuel
            dsimp only
            rw [inductionHypothesis less _ (by omega) (by omega)]
  exact stable fuel input.length input enough (Nat.le_refl _)

@[simp] theorem fgetsAll_nil : fgetsAll newline limit [] = [] := rfl

/-- The first call, and the calls on what it leaves. -/
theorem fgetsAll_cons (positive : 0 < limit) {input : List α} (nonempty : input ≠ []) :
    fgetsAll newline limit input =
      (fgets newline limit input).1 ::
        fgetsAll newline limit (fgets newline limit input).2 := by
  have fewer := @length_fgets_left α _ newline limit positive input nonempty
  obtain ⟨first, rest, rfl⟩ := List.exists_cons_of_ne_nil nonempty
  have unfolds : fgetsAll newline limit (first :: rest) =
      (fgets newline limit (first :: rest)).1 ::
        fgetsFuel newline limit rest.length (fgets newline limit (first :: rest)).2 := rfl
  rw [unfolds, fgetsFuel_eq positive (by simpa using Nat.le_of_lt_succ fewer)]

/-- The calls return the whole input, piece by piece. -/
theorem flatten_fgetsAll (positive : 0 < limit) (input : List α) :
    (fgetsAll newline limit input).flatten = input := by
  induction input using fgets_induction newline positive with
  | nil => rfl
  | call input nonempty inductionHypothesis =>
      rw [fgetsAll_cons positive nonempty, List.flatten_cons, inductionHypothesis, fgets_append]

/-- The calls that return a line and its newline return nothing behind it. -/
theorem fgetsAll_line (positive : 0 < limit) {line : List α} (rest : List α)
    (noNewline : newline ∉ line) :
    ∃ pieces, pieces.flatten = line ++ [newline] ∧
      fgetsAll newline limit (line ++ newline :: rest) = pieces ++ fgetsAll newline limit rest := by
  induction length : line.length using Nat.strong_induction_on generalizing line with
  | _ total inductionHypothesis =>
      rw [fgetsAll_cons positive (by simp)]
      by_cases short : line.length < limit
      · rw [fgets_line rest noNewline short]
        exact ⟨[line ++ [newline]], by simp, rfl⟩
      · have notLeft : newline ∉ line.drop limit :=
          fun member => noNewline (List.mem_of_mem_drop member)
        have shorter : (line.drop limit).length < total := by
          rw [List.length_drop]
          omega
        obtain ⟨pieces, flat, calls⟩ := inductionHypothesis _ shorter notLeft rfl
        rw [fgets_long (newline :: rest) noNewline (Nat.le_of_not_lt short)]
        refine ⟨line.take limit :: pieces, ?_, congrArg (line.take limit :: ·) calls⟩
        rw [List.flatten_cons, flat, ← List.append_assoc, List.take_append_drop]

/-! ### Lines -/

/-- The lines of a text, without their newlines. -/
def linesOf (newline : α) : List α → List (List α)
  | [] => [[]]
  | first :: rest =>
      if first = newline then [] :: linesOf newline rest
      else
        match linesOf newline rest with
        | [] => [[first]]
        | line :: others => (first :: line) :: others

theorem linesOf_last {line : List α} (noNewline : newline ∉ line) :
    linesOf newline line = [line] := by
  induction line with
  | nil => rfl
  | cons first rest inductionHypothesis =>
      have notFirst : first ≠ newline :=
        fun same => noNewline (by rw [same]; exact List.mem_cons_self)
      unfold linesOf
      rw [if_neg notFirst,
        inductionHypothesis fun member => noNewline (List.mem_cons_of_mem _ member)]

theorem linesOf_line {line : List α} (rest : List α) (noNewline : newline ∉ line) :
    linesOf newline (line ++ newline :: rest) = line :: linesOf newline rest := by
  induction line with
  | nil =>
      show linesOf newline (newline :: rest) = _
      rw [linesOf, if_pos rfl]
  | cons first others inductionHypothesis =>
      have notFirst : first ≠ newline :=
        fun same => noNewline (by rw [same]; exact List.mem_cons_self)
      show linesOf newline (first :: (others ++ newline :: rest)) = _
      rw [linesOf, if_neg notFirst,
        inductionHypothesis fun member => noNewline (List.mem_cons_of_mem _ member)]

/-- A text is one last line, or a line with its newline and a text behind it. -/
theorem linesOf_cases (newline : α) (input : List α) :
    newline ∉ input ∨
      ∃ line rest, input = line ++ newline :: rest ∧ newline ∉ line := by
  by_cases member : newline ∈ input
  · right
    obtain ⟨line, rest, split, noNewline⟩ := List.eq_append_cons_of_mem member
    exact ⟨line, rest, split, noNewline⟩
  · exact .inl member

/-- Induction along the lines, from the last one to the first. -/
@[elab_as_elim]
theorem lines_induction (newline : α) {motive : List α → Prop}
    (last : ∀ line, newline ∉ line → motive line)
    (line : ∀ line rest, newline ∉ line → motive rest → motive (line ++ newline :: rest))
    (input : List α) : motive input := by
  induction length : input.length using Nat.strong_induction_on generalizing input with
  | _ total inductionHypothesis =>
      rcases linesOf_cases newline input with noNewline | ⟨first, rest, rfl, noNewline⟩
      · exact last input noNewline
      · have shorter : rest.length < total := by
          simp only [List.length_append, List.length_cons] at length
          omega
        exact line first rest noNewline (inductionHypothesis _ shorter rest rfl)

/-! ### Calls on lines that are short enough -/

theorem fgets_last {line : List α} (noNewline : newline ∉ line) (short : line.length ≤ limit) :
    fgets newline limit line = (line, []) := by
  induction limit generalizing line with
  | zero =>
      rw [List.length_eq_zero_iff.mp (Nat.le_zero.mp short)]
      rfl
  | succ limit inductionHypothesis =>
      cases line with
      | nil => rfl
      | cons first rest =>
          obtain ⟨notFirst, notRest⟩ := not_or.mp (mt List.mem_cons.mpr noNewline)
          rw [fgets, if_neg (Ne.symm notFirst),
            inductionHypothesis notRest (Nat.le_of_succ_le_succ short)]

/-- Every line that is short enough is what one call returns, with its newline if there is one. -/
theorem fgetsAll_short (positive : 0 < limit) {motive : List (List α) → List (List α) → Prop}
    {input : List α} (short : ∀ line ∈ linesOf newline input, line.length < limit)
    (nothing : motive [[]] [])
    (last : ∀ line, line ≠ [] → motive [line] [line])
    (line : ∀ line lines pieces, motive lines pieces →
      motive (line :: lines) ((line ++ [newline]) :: pieces)) :
    motive (linesOf newline input) (fgetsAll newline limit input) := by
  induction input using lines_induction newline with
  | last text noNewline =>
      rw [linesOf_last noNewline] at short ⊢
      by_cases empty : text = []
      · rw [empty]
        exact nothing
      · have inTime := short text (List.mem_singleton.mpr rfl)
        rw [fgetsAll_cons positive empty, fgets_last noNewline (Nat.le_of_lt inTime)]
        exact last text empty
  | line text rest noNewline inductionHypothesis =>
      rw [linesOf_line rest noNewline] at short ⊢
      have notEmpty : text ++ newline :: rest ≠ [] := by simp
      rw [fgetsAll_cons positive notEmpty, fgets_line rest noNewline (short text List.mem_cons_self)]
      exact line text _ _
        (inductionHypothesis fun other member => short other (List.mem_cons_of_mem _ member))

end EE323.Lib
