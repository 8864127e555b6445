/-
Module: EE323.Proxy.Chunking
Purpose: Whether the end of a request is noticed does not only depend on the bytes.  The receive loop
  looks at the last three bytes when `recv` has returned, so it can stop before the blank line, miss
  the blank line, or look before the start of the array, all by the way the bytes were cut.
Main exports: HasBlankLine, untilBlankLine, StopsAtBlankLine, WellCut, requestHead,
  stops_at_blank_line, stopped_before_blank_line
-/
import Mathlib.Data.List.Infix
import EE323.Proxy.Receiving

namespace EE323.Proxy

open EE323.Lib

/-- CR LF CR LF. -/
def blankLine : List Byte := [carriageReturn, lineFeed, carriageReturn, lineFeed]

def HasBlankLine (bytes : List Byte) : Prop := blankLine <:+: bytes

instance (bytes : List Byte) : Decidable (HasBlankLine bytes) :=
  inferInstanceAs (Decidable (_ <:+: _))

/-- The chunks up to the first behind which the bytes so far contain a blank line. -/
def untilBlankLine : List Byte → List Chunk → List Chunk
  | _, [] => []
  | before, chunk :: rest =>
      if HasBlankLine (before ++ chunk.bytes) then [chunk]
      else chunk :: untilBlankLine (before ++ chunk.bytes) rest

/-- The loop notices the end of the request as soon as there is a blank line, and never before: its
test tells so at every boundary that it reaches, and the chunks up to there are what it returns. -/
structure StopsAtBlankLine (chunks : List Chunk) : Prop where
  test : ∀ part, part <+: untilBlankLine [] chunks → part ≠ [] →
    endsRequest (textOf part) (sent part).length = .ok (decide (HasBlankLine (sent part)))
  returns : receive chunks 0 [] = .ok (sent (untilBlankLine [] chunks))

/-- At every boundary up to the blank line, the bytes so far are no line end alone, and end in LF CR
LF exactly when they contain a blank line. -/
def WellCut (chunks : List Chunk) : Prop :=
  ∀ part, part <+: untilBlankLine [] chunks → part ≠ [] →
    sent part ≠ [lineFeed] ∧ sent part ≠ [carriageReturn, lineFeed] ∧
      ([lineFeed, carriageReturn, lineFeed] <:+ sent part ↔ HasBlankLine (sent part))

/-- The request line and the headers: the bytes up to the end of the first blank line. -/
def requestHead : List Byte → List Byte
  | [] => []
  | byte :: rest => if blankLine <+: byte :: rest then blankLine else byte :: requestHead rest

/-! ### The chunks up to the blank line -/

theorem untilBlankLine_prefix (before : List Byte) (chunks : List Chunk) :
    untilBlankLine before chunks <+: chunks := by
  induction chunks generalizing before with
  | nil => exact List.prefix_rfl
  | cons chunk rest inductionHypothesis =>
      unfold untilBlankLine
      split
      · exact List.prefix_append [chunk] rest
      · exact (List.prefix_cons_inj chunk).mpr (inductionHypothesis _)

theorem untilBlankLine_stops (before : List Byte) (chunks : List Chunk) :
    untilBlankLine before chunks = chunks ∨ untilBlankLine before chunks ≠ [] ∧
      HasBlankLine (before ++ sent (untilBlankLine before chunks)) := by
  induction chunks generalizing before with
  | nil => exact .inl rfl
  | cons chunk rest inductionHypothesis =>
      unfold untilBlankLine
      split
      · rename_i has
        exact .inr ⟨List.cons_ne_nil _ _, by simpa [sent] using has⟩
      · rcases inductionHypothesis (before ++ chunk.bytes) with all | ⟨_, has⟩
        · exact .inl (by rw [all])
        · exact .inr ⟨List.cons_ne_nil _ _, by simpa [sent, List.append_assoc] using has⟩

theorem untilBlankLine_first {before : List Byte} {chunks part : List Chunk}
    (isPart : part <+: untilBlankLine before chunks) (notNil : part ≠ [])
    (proper : part ≠ untilBlankLine before chunks) : ¬HasBlankLine (before ++ sent part) := by
  induction chunks generalizing before part with
  | nil => exact absurd (List.prefix_nil.mp isPart) notNil
  | cons chunk rest inductionHypothesis =>
      unfold untilBlankLine at isPart proper
      split at isPart
      · rename_i has
        rw [if_pos has] at proper
        rcases List.prefix_cons_iff.mp isPart with isNil | ⟨later, rfl, isLater⟩
        · exact absurd isNil notNil
        · rw [List.prefix_nil.mp isLater] at proper
          exact absurd rfl proper
      · rename_i hasNot
        rw [if_neg hasNot] at proper
        rcases List.prefix_cons_iff.mp isPart with isNil | ⟨later, rfl, isLater⟩
        · exact absurd isNil notNil
        · by_cases alone : later = []
          · rw [alone]
            simpa [sent] using hasNot
          · have further := inductionHypothesis isLater alone fun same => proper (by rw [same])
            simpa [sent, List.append_assoc] using further

/-! ### The head of the request -/

theorem requestHead_cons (byte : Byte) (rest : List Byte) : requestHead (byte :: rest) =
    if blankLine <+: byte :: rest then blankLine else byte :: requestHead rest := by
  rw [requestHead]

theorem requestHead_append {bytes : List Byte} (more : List Byte) (has : HasBlankLine bytes) :
    requestHead (bytes ++ more) = requestHead bytes := by
  induction bytes with
  | nil => exact absurd (List.infix_nil.mp has) (by decide)
  | cons byte rest inductionHypothesis =>
      have long {front : List Byte} (isPrefix : blankLine <+: front ++ more)
          (fits : blankLine.length ≤ front.length) : blankLine <+: front :=
        List.prefix_of_prefix_length_le isPrefix (List.prefix_append _ _) fits
      rw [List.cons_append, requestHead_cons, requestHead_cons]
      by_cases here : blankLine <+: byte :: rest
      · rw [if_pos here]
        exact if_pos (here.trans (List.prefix_append (byte :: rest) more))
      · rcases List.infix_cons_iff.mp has with isHere | later
        · exact absurd isHere here
        · have fits : blankLine.length ≤ (byte :: rest).length := has.length_le
          have notHere : ¬blankLine <+: byte :: (rest ++ more) :=
            fun isPrefix => here (long isPrefix fits)
          rw [if_neg here, if_neg notHere, inductionHypothesis later]

/-- The head of what the loop returns is the head of the whole stream. -/
theorem requestHead_untilBlankLine (chunks : List Chunk) :
    requestHead (sent (untilBlankLine [] chunks)) = requestHead (sent chunks) := by
  rcases untilBlankLine_stops [] chunks with all | ⟨_, has⟩
  · rw [all]
  · obtain ⟨more, split⟩ := untilBlankLine_prefix [] chunks
    rw [List.nil_append] at has
    have whole : sent chunks = sent (untilBlankLine [] chunks) ++ sent more := by
      rw [← sent_append, split]
    rw [whole, requestHead_append _ has]

/-! ### The loop -/

variable {chunks : List Chunk}

theorem sent_part_length {part : List Chunk} (isPart : part <+: chunks) :
    (sent part).length ≤ (sent chunks).length := by
  obtain ⟨more, rfl⟩ := isPart
  simp

theorem zero_not_mem_part {part : List Chunk} (noZero : 0 ∉ sent chunks) (isPart : part <+: chunks) :
    0 ∉ sent part := by
  obtain ⟨more, rfl⟩ := isPart
  intro zero
  exact noZero (by rw [sent_append]; exact List.mem_append_left _ zero)

/-- The test at one boundary of a stream without NUL that fits. -/
theorem endsRequest_blankLine {part : List Chunk} (notNil : part ≠ []) (noZero : 0 ∉ sent part)
    (fits : (sent part).length < maxDataSize) :
    endsRequest (textOf part) (sent part).length = .ok (decide (HasBlankLine (sent part))) ↔
      sent part ≠ [lineFeed] ∧ sent part ≠ [carriageReturn, lineFeed] ∧
        ([lineFeed, carriageReturn, lineFeed] <:+ sent part ↔ HasBlankLine (sent part)) := by
  have text := textOf_eq_sent noZero
  have textFits : (textOf part).length < maxDataSize := by rwa [text]
  have ended : Ended (sent part) ↔ [lineFeed, carriageReturn, lineFeed] <:+ sent part := by
    simp [Ended, noZero]
  rw [endsRequest_ok_iff notNil textFits, ended, decide_eq_true_iff]
  constructor
  · rintro ⟨sized, same⟩
    exact ⟨sized.notLineFeed, sized.notLineEnd, same.symm⟩
  · rintro ⟨notLineFeed, notLineEnd, same⟩
    exact ⟨⟨Nat.le_of_lt fits, textFits, notLineFeed, notLineEnd⟩, same.symm⟩

/-- At every boundary up to the blank line the test is right, so the loop returns what is there. -/
theorem WellCut.returns (wellCut : WellCut chunks) (noZero : 0 ∉ sent chunks)
    (fits : (sent chunks).length < maxDataSize) :
    receive chunks 0 [] = .ok (sent (untilBlankLine [] chunks)) := by
  have isFirst := untilBlankLine_prefix [] chunks
  have noZeroUntil := zero_not_mem_part noZero isFirst
  have ended {part : List Chunk} (isPart : part <+: untilBlankLine [] chunks) (notNil : part ≠ []) :
      Ended (sent part) ↔ HasBlankLine (sent part) := by
    have partNoZero := zero_not_mem_part noZeroUntil isPart
    have same := (wellCut part isPart notNil).2.2
    simpa [Ended, partNoZero] using same
  refine receive_eq_ok.mpr ⟨untilBlankLine [] chunks, ⟨isFirst, ?_, ?_⟩, ?_, ?_⟩
  · refine (untilBlankLine_stops [] chunks).imp_right ?_
    rintro ⟨notNil, has⟩
    exact ⟨notNil, (ended List.prefix_rfl notNil).mpr has⟩
  · intro part isPart notNil proper isEnded
    exact untilBlankLine_first isPart notNil proper ((ended isPart notNil).mp isEnded)
  · intro part isPart notNil
    have partNoZero := zero_not_mem_part noZeroUntil isPart
    have length := Nat.le_trans (sent_part_length isPart) (sent_part_length isFirst)
    obtain ⟨notLineFeed, notLineEnd, _⟩ := wellCut part isPart notNil
    exact ⟨by omega, by rw [textOf_eq_sent partNoZero]; omega, notLineFeed, notLineEnd⟩
  · exact textOf_eq_sent noZeroUntil

/-- For every stream without NUL that fits the buffer and every way to cut it, the loop stops at the
blank line and nowhere else exactly when the stream is well cut; then what it returns has the same
request line and headers for every other such way. -/
theorem stops_at_blank_line (noZero : 0 ∉ sent chunks) (fits : (sent chunks).length < maxDataSize) :
    (StopsAtBlankLine chunks ↔ WellCut chunks) ∧
      ∀ other text otherText, sent other = sent chunks → WellCut chunks → WellCut other →
        receive chunks 0 [] = .ok text → receive other 0 [] = .ok otherText →
          requestHead text = requestHead otherText := by
  have isFirst := untilBlankLine_prefix [] chunks
  constructor
  · constructor
    · intro stops part isPart notNil
      have isPartOfAll := isPart.trans isFirst
      exact (endsRequest_blankLine notNil (zero_not_mem_part noZero isPartOfAll)
        (Nat.lt_of_le_of_lt (sent_part_length isPartOfAll) fits)).mp (stops.test part isPart notNil)
    · intro wellCut
      refine ⟨fun part isPart notNil => ?_, wellCut.returns noZero fits⟩
      have isPartOfAll := isPart.trans isFirst
      exact (endsRequest_blankLine notNil (zero_not_mem_part noZero isPartOfAll)
        (Nat.lt_of_le_of_lt (sent_part_length isPartOfAll) fits)).mpr (wellCut part isPart notNil)
  · intro other text otherText sameBytes wellCut otherWellCut returned otherReturned
    rw [wellCut.returns noZero fits] at returned
    rw [otherWellCut.returns (by rwa [sameBytes]) (by rwa [sameBytes])] at otherReturned
    rw [← Except.ok.inj returned, ← Except.ok.inj otherReturned, requestHead_untilBlankLine,
      requestHead_untilBlankLine, sameBytes]

/-! ### One stream, cut in two ways -/

private def getLine : Chunk where
  bytes := ascii ['G', 'E', 'T', ' ', '/', '\n', '\r', '\n']
  nonempty := by decide
  fits := by decide

private def hostChunk : Chunk where
  bytes := ascii ['H', 'o', 's', 't', ':', ' ', 'a', '\r', '\n', '\r', '\n']
  nonempty := by decide
  fits := by decide

private def wholeRequest : Chunk where
  bytes := getLine.bytes ++ hostChunk.bytes
  nonempty := by decide
  fits := by decide

private def getChunk : Chunk where
  bytes := ascii ['G', 'E', 'T', ' ', '/', '\r', '\n']
  nonempty := by decide
  fits := by decide

private def wholeChunk : Chunk where
  bytes := getChunk.bytes ++ hostChunk.bytes
  nonempty := by decide
  fits := by decide

private theorem wellCut_two : WellCut [getChunk, hostChunk] := by
  have both : untilBlankLine [] [getChunk, hostChunk] = [getChunk, hostChunk] := by
    unfold untilBlankLine untilBlankLine
    rw [if_neg (by decide +kernel), if_pos (by decide +kernel)]
  unfold WellCut
  rw [both]
  refine forall_prefix_cons.mpr ⟨by decide +kernel, ?_⟩
  refine forall_prefix_cons.mpr ⟨by decide +kernel, ?_⟩
  intro part isPart notNil
  exact absurd (List.prefix_nil.mp isPart) notNil

private theorem wellCut_whole : WellCut [wholeChunk] := by
  have single : untilBlankLine [] [wholeChunk] = [wholeChunk] := by
    unfold untilBlankLine
    exact if_pos (by decide +kernel)
  unfold WellCut
  rw [single]
  refine forall_prefix_cons.mpr ⟨by decide +kernel, ?_⟩
  intro part isPart notNil
  exact absurd (List.prefix_nil.mp isPart) notNil

/-- Cut between its two lines, a request is read to its end, with the head that it has in
one piece. -/
theorem stops_at_blank_line_two : StopsAtBlankLine [getChunk, hostChunk] ∧
    ∃ text otherText, receive [getChunk, hostChunk] 0 [] = .ok text ∧
      receive [wholeChunk] 0 [] = .ok otherText ∧ requestHead text = requestHead otherText := by
  have stops := @stops_at_blank_line [getChunk, hostChunk] (by decide) (by decide)
  have read : receive [getChunk, hostChunk] 0 [] = .ok wholeChunk.bytes := by decide +kernel
  have readWhole : receive [wholeChunk] 0 [] = .ok wholeChunk.bytes := by decide +kernel
  exact ⟨stops.1.mpr wellCut_two, _, _, read, readWhole,
    stops.2 [wholeChunk] _ _ rfl wellCut_two wellCut_whole read readWhole⟩

/-- An empty line behind a line that ends in a bare line feed: cut there, the bytes make the loop
stop. -/
theorem stopped_before_blank_line : sent [getLine, hostChunk] = sent [wholeRequest] ∧
    0 ∉ sent [getLine, hostChunk] ∧ (sent [getLine, hostChunk]).length < maxDataSize ∧
    receive [getLine, hostChunk] 0 [] = .ok getLine.bytes ∧ ¬HasBlankLine getLine.bytes ∧
    ¬StopsAtBlankLine [getLine, hostChunk] ∧
    requestHead getLine.bytes ≠ requestHead (sent [wholeRequest]) := by
  have early : receive [getLine, hostChunk] 0 [] = .ok getLine.bytes := by decide +kernel
  refine ⟨rfl, by decide, by decide, early, by decide +kernel, ?_, by decide +kernel⟩
  intro stops
  have later := stops.returns
  rw [early] at later
  exact absurd (Except.ok.inj later) (by decide +kernel)

end EE323.Proxy
