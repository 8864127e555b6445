/-
Module: EE323.Proxy.Receiving
Purpose: What the receive loop accepts.  It returns the text of the chunks that arrive, and it stays
  inside `totalBuf` exactly when each part of them fits and is not a bare line end.
Main exports: sent, textOf, Ended, Sized, Arrives, receive_eq_ok
-/
import Mathlib.Data.List.Basic
import Mathlib.Data.List.TakeWhile
import EE323.Proxy.Request

namespace EE323.Proxy

open EE323.Lib

/-- The bytes of the chunks. -/
def sent (chunks : List Chunk) : List Byte := chunks.flatMap fun chunk => chunk.bytes

/-- What `strcat` keeps of the chunks: each one up to its first NUL. -/
def textOf (chunks : List Chunk) : List Byte := chunks.flatMap fun chunk => cString chunk.bytes

/-- The bytes hold no NUL and end in the way that the receive loop waits for. -/
def Ended (bytes : List Byte) : Prop := 0 ∉ bytes ∧ [lineFeed, carriageReturn, lineFeed] <:+ bytes

/-- The bytes are read at indices of `totalBuf`, their text fits with its NUL, and they are not a
line end alone. -/
structure Sized (chunks : List Chunk) : Prop where
  read : (sent chunks).length ≤ maxDataSize
  fits : (textOf chunks).length < maxDataSize
  notLineFeed : sent chunks ≠ [lineFeed]
  notLineEnd : sent chunks ≠ [carriageReturn, lineFeed]

theorem textOf_eq_sent {chunks : List Chunk} (noZero : 0 ∉ sent chunks) :
    textOf chunks = sent chunks := by
  unfold textOf sent
  apply List.flatMap_congr
  intro chunk member
  apply cString_eq_self
  intro zero
  exact noZero (List.mem_flatMap.mpr ⟨chunk, member, zero⟩)

theorem zero_not_mem_textOf (chunks : List Chunk) : 0 ∉ textOf chunks := by
  intro zero
  obtain ⟨chunk, _, inChunk⟩ := List.mem_flatMap.mp zero
  exact zero_not_mem_cString _ inChunk

theorem length_textOf_le (chunks : List Chunk) : (textOf chunks).length ≤ (sent chunks).length := by
  induction chunks with
  | nil => exact Nat.le_refl _
  | cons first rest inductionHypothesis =>
      have one := length_cString_le first.bytes
      simp only [textOf, sent, List.flatMap_cons, List.length_append] at *
      omega

theorem textOf_shorter {chunks : List Chunk} (zero : 0 ∈ sent chunks) :
    (textOf chunks).length < (sent chunks).length := by
  induction chunks with
  | nil => cases zero
  | cons first rest inductionHypothesis =>
      have one := length_cString_le first.bytes
      have later := length_textOf_le rest
      have cases := List.mem_append.mp (show 0 ∈ first.bytes ++ sent rest from zero)
      simp only [textOf, sent, List.flatMap_cons, List.length_append] at *
      rcases cases with here | there
      · have shorter := cString_shorter here
        omega
      · have shorter := inductionHypothesis there
        omega

@[simp] theorem sent_append (one two : List Chunk) : sent (one ++ two) = sent one ++ sent two :=
  List.flatMap_append

@[simp] theorem textOf_append (one two : List Chunk) :
    textOf (one ++ two) = textOf one ++ textOf two :=
  List.flatMap_append

theorem sent_ne_nil {chunks : List Chunk} (nonempty : chunks ≠ []) : sent chunks ≠ [] := by
  obtain ⟨first, rest, rfl⟩ := List.exists_cons_of_ne_nil nonempty
  intro isNil
  exact first.nonempty (List.append_eq_nil_iff.mp isNil).1

/-! ### The test for the end -/

theorem readBack_eq {totalBuf : List Byte} {numTot back : Nat} (enough : back ≤ numTot)
    (inside : numTot - back < maxDataSize) :
    readBack totalBuf numTot back = .ok (totalBuf.getD (numTot - back) 0) := by
  unfold readBack readAt
  rw [if_pos enough, if_pos inside]

/-- With a NUL among the bytes the last byte of the text is not where the loop looks. -/
theorem endsRequest_of_zero {chunks : List Chunk} (read : (sent chunks).length ≤ maxDataSize)
    (zero : 0 ∈ sent chunks) :
    endsRequest (textOf chunks) (sent chunks).length = .ok false := by
  have shorter := textOf_shorter zero
  unfold endsRequest
  rw [readBack_eq (by omega) (by omega), List.getD_eq_default _ _ (by omega)]
  rfl

/-- The byte that lies some bytes before the end. -/
theorem readBack_append {front back : List Byte} {first : Byte}
    (read : (front ++ first :: back).length ≤ maxDataSize) :
    readBack (front ++ first :: back) (front ++ first :: back).length (back.length + 1) =
      .ok first := by
  have total : (front ++ first :: back).length = front.length + (back.length + 1) := by simp
  rw [total] at read ⊢
  rw [readBack_eq (by omega) (by omega), Nat.add_sub_cancel,
    List.getD_append_right _ _ _ _ (Nat.le_refl _), Nat.sub_self]
  rfl

theorem suffix_three {a b c : Byte} {wanted front : List Byte} (three : wanted.length = 3) :
    wanted <:+ front ++ [a, b, c] ↔ wanted = [a, b, c] := by
  constructor
  · rintro ⟨before, same⟩
    exact (List.append_inj' same three).2
  · rintro rfl
    exact List.suffix_append _ _

/-- The loop looks at the last three bytes of a text without NUL. -/
theorem endsRequest_three {front : List Byte} {a b c : Byte}
    (read : (front ++ [a, b, c]).length ≤ maxDataSize) :
    endsRequest (front ++ [a, b, c]) (front ++ [a, b, c]).length =
      .ok (decide ([lineFeed, carriageReturn, lineFeed] <:+ front ++ [a, b, c])) := by
  have third := @readBack_append (front ++ [a, b]) [] c (by simpa using read)
  have second := @readBack_append (front ++ [a]) [c] b (by simpa using read)
  have first := @readBack_append front [b, c] a read
  simp only [List.append_assoc, List.cons_append, List.nil_append, List.length_cons,
    List.length_nil, Nat.zero_add, Nat.reduceAdd] at third second first
  unfold endsRequest
  rw [third, second, first]
  simp only [suffix_three (show [lineFeed, carriageReturn, lineFeed].length = 3 from rfl)]
  by_cases notC : c ≠ lineFeed
  · rw [decide_eq_false (by simpa using fun _ _ => notC.symm)]
    exact if_pos notC
  by_cases notB : b ≠ carriageReturn
  · rw [decide_eq_false (by simpa using fun _ isB => absurd isB.symm notB)]
    exact (if_neg notC).trans (if_pos notB)
  by_cases notA : a ≠ lineFeed
  · rw [decide_eq_false (by simpa using fun isA => absurd isA.symm notA)]
    exact (if_neg notC).trans ((if_neg notB).trans (if_pos notA))
  · rw [not_not.mp notA, not_not.mp notB, not_not.mp notC, decide_eq_true rfl]
    rfl

/-- Before three bytes have come, a line end makes the loop look before the start of the array. -/
theorem endsRequest_short {bytes : List Byte} (nonempty : bytes ≠ []) (short : bytes.length < 3) :
    endsRequest bytes bytes.length =
      if bytes = [lineFeed] ∨ bytes = [carriageReturn, lineFeed] then .error .read
      else .ok false := by
  match bytes with
  | [c] =>
      have third := @readBack_append [] [] c (by simp [maxDataSize])
      unfold endsRequest
      rw [show readBack [c] [c].length 1 = .ok c from third]
      by_cases notC : c ≠ lineFeed
      · rw [if_neg (by simpa using notC)]
        exact if_pos notC
      · rw [not_not.mp notC]
        rfl
  | [b, c] =>
      have third := @readBack_append [b] [] c (by simp [maxDataSize])
      have second := @readBack_append [] [c] b (by simp [maxDataSize])
      unfold endsRequest
      rw [show readBack [b, c] [b, c].length 1 = .ok c from third,
        show readBack [b, c] [b, c].length 2 = .ok b from second]
      by_cases notC : c ≠ lineFeed
      · rw [if_neg (by simpa using fun _ => notC)]
        exact if_pos notC
      by_cases notB : b ≠ carriageReturn
      · rw [if_neg (by simpa using fun isB => absurd isB notB)]
        exact (if_neg notC).trans (if_pos notB)
      · rw [not_not.mp notB, not_not.mp notC]
        rfl

theorem exists_last_three {bytes : List Byte} (long : 3 ≤ bytes.length) :
    ∃ front a b c, bytes = front ++ [a, b, c] := by
  have three : (bytes.drop (bytes.length - 3)).length = 3 := by
    rw [List.length_drop]
    omega
  obtain ⟨a, b, c, back⟩ := List.length_eq_three.mp three
  refine ⟨bytes.take (bytes.length - 3), a, b, c, ?_⟩
  rw [← back, List.take_append_drop]

/-- The test stays inside the array exactly when the bytes are not a line end alone, and then it
holds exactly when they have ended. -/
theorem endsRequest_ok_iff {chunks : List Chunk} {ended : Bool} (nonempty : chunks ≠ [])
    (fits : (textOf chunks).length < maxDataSize) :
    endsRequest (textOf chunks) (sent chunks).length = .ok ended ↔
      Sized chunks ∧ (ended = true ↔ Ended (sent chunks)) := by
  have some := sent_ne_nil nonempty
  by_cases read : (sent chunks).length ≤ maxDataSize
  · by_cases zero : 0 ∈ sent chunks
    · have notEnded : ¬Ended (sent chunks) := fun isEnded => isEnded.1 zero
      have sized : Sized chunks := by
        constructor
        · exact read
        · exact fits
        · intro isLineFeed
          rw [isLineFeed] at zero
          exact absurd zero (by decide)
        · intro isLineEnd
          rw [isLineEnd] at zero
          exact absurd zero (by decide)
      rw [endsRequest_of_zero read zero]
      cases ended <;> simp [notEnded, sized]
    · rw [textOf_eq_sent zero] at fits ⊢
      have isEnded : Ended (sent chunks) ↔
          [lineFeed, carriageReturn, lineFeed] <:+ sent chunks := by
        simp [Ended, zero]
      by_cases short : (sent chunks).length < 3
      · have notEnded : ¬[lineFeed, carriageReturn, lineFeed] <:+ sent chunks :=
          fun suffix => absurd suffix.length_le (Nat.not_le_of_lt short)
        rw [endsRequest_short some short, isEnded]
        split
        · rename_i lineEnd
          constructor
          · intro failed
            cases failed
          · rintro ⟨sized, _⟩
            rcases lineEnd with isLineFeed | isLineEnd
            · exact absurd isLineFeed sized.notLineFeed
            · exact absurd isLineEnd sized.notLineEnd
        · rename_i other
          have sized : Sized chunks := ⟨read, by rw [textOf_eq_sent zero]; exact fits,
            fun isLineFeed => other (.inl isLineFeed), fun isLineEnd => other (.inr isLineEnd)⟩
          cases ended <;> simp [notEnded, sized]
      · obtain ⟨front, a, b, c, split⟩ := exists_last_three (Nat.le_of_not_lt short)
        have sized : Sized chunks := by
          constructor
          · exact read
          · rw [textOf_eq_sent zero]
            exact fits
          · intro isLineFeed
            rw [isLineFeed] at short
            exact short (by decide)
          · intro isLineEnd
            rw [isLineEnd] at short
            exact short (by decide)
        rw [split] at read
        rw [isEnded, split, endsRequest_three read]
        cases ended <;> simp [sized]
  · have outside : endsRequest (textOf chunks) (sent chunks).length = .error .read := by
      unfold endsRequest readBack readAt
      rw [if_pos (by omega), if_neg (by omega)]
      rfl
    rw [outside]
    constructor
    · intro failed
      cases failed
    · rintro ⟨sized, _⟩
      exact absurd sized.read read

/-! ### The loop -/

/-- The loop stops with these chunks: they have ended or are all, and none of their parts had. -/
structure Stops (before rest more : List Chunk) : Prop where
  first : more <+: rest
  stops : more = rest ∨ more ≠ [] ∧ Ended (sent (before ++ more))
  notBefore : ∀ part, part <+: more → part ≠ [] → part ≠ more → ¬Ended (sent (before ++ part))

/-- One round of the loop. -/
theorem receive_cons_ok_iff {before rest : List Chunk} {chunk : Chunk} {text : List Byte} :
    receive (chunk :: rest) (sent before).length (textOf before) = .ok text ↔
      Sized (before ++ [chunk]) ∧
        (Ended (sent (before ++ [chunk])) ∧ textOf (before ++ [chunk]) = text ∨
          ¬Ended (sent (before ++ [chunk])) ∧
            receive rest (sent (before ++ [chunk])).length (textOf (before ++ [chunk])) =
              .ok text) := by
  have total : (sent before).length + chunk.bytes.length = (sent (before ++ [chunk])).length := by
    simp [sent]
  have text_eq : textOf before ++ cString chunk.bytes = textOf (before ++ [chunk]) := by
    simp [textOf]
  have nonempty : before ++ [chunk] ≠ [] := by simp
  have unfolds : receive (chunk :: rest) (sent before).length (textOf before) =
      strcat (textOf before) (cString chunk.bytes) >>= fun totalBuf =>
        endsRequest totalBuf (sent (before ++ [chunk])).length >>= fun ended =>
          if ended then .ok totalBuf
          else receive rest (sent (before ++ [chunk])).length totalBuf := by
    rw [← total]
    rfl
  rw [unfolds]
  unfold strcat
  rw [← List.length_append, text_eq]
  by_cases tooLong : ¬(textOf (before ++ [chunk])).length < maxDataSize
  · rw [if_neg tooLong]
    constructor
    · intro failed
      cases failed
    · exact fun both => absurd both.1.fits tooLong
  have fits := not_not.mp tooLong
  rw [if_pos fits]
  show (endsRequest _ _ >>= fun _ => _) = _ ↔ _
  have step : ∀ ended, endsRequest (textOf (before ++ [chunk])) (sent (before ++ [chunk])).length =
      .ok ended ↔ Sized (before ++ [chunk]) ∧ (ended = true ↔ Ended (sent (before ++ [chunk]))) :=
    fun ended => endsRequest_ok_iff nonempty fits
  constructor
  · intro returned
    obtain ⟨ended, tested, returned⟩ := bind_eq_ok.mp returned
    obtain ⟨sized, isEnded⟩ := (step ended).mp tested
    refine ⟨sized, ?_⟩
    cases ended with
    | true => exact .inl ⟨isEnded.mp rfl, Except.ok.inj returned⟩
    | false => exact .inr ⟨fun has => absurd (isEnded.mpr has) (by decide), returned⟩
  · rintro ⟨sized, ⟨has, rfl⟩ | ⟨hasNot, returned⟩⟩
    · exact bind_eq_ok.mpr ⟨true, (step true).mpr ⟨sized, fun _ => has, fun _ => rfl⟩, rfl⟩
    · exact bind_eq_ok.mpr ⟨false, (step false).mpr
        ⟨sized, fun isTrue => Bool.noConfusion isTrue, fun has => absurd has hasNot⟩, returned⟩

/-- The nonempty parts of a list that has a first chunk are that chunk alone and those that go on
with a nonempty part of the rest. -/
theorem forall_prefix_cons {P : List Chunk → Prop} {chunk : Chunk} {rest : List Chunk} :
    (∀ part, part <+: chunk :: rest → part ≠ [] → P part) ↔
      P [chunk] ∧ ∀ part, part <+: rest → part ≠ [] → P (chunk :: part) := by
  constructor
  · intro all
    refine ⟨all [chunk] (List.prefix_append [chunk] rest) (List.cons_ne_nil _ _), ?_⟩
    intro part isPart _
    exact all (chunk :: part) ((List.prefix_cons_inj chunk).mpr isPart) (List.cons_ne_nil _ _)
  · rintro ⟨alone, longer⟩ part isPart notNil
    rcases List.prefix_cons_iff.mp isPart with isNil | ⟨later, rfl, isLater⟩
    · exact absurd isNil notNil
    · by_cases isNil : later = []
      · rw [isNil]
        exact alone
      · exact longer later isLater isNil

/-- The loop stops with at least one chunk, if any is left. -/
theorem Stops.starts {before rest more : List Chunk} {chunk : Chunk}
    (stops : Stops before (chunk :: rest) more) : ∃ later, more = chunk :: later ∧ later <+: rest := by
  rcases List.prefix_cons_iff.mp stops.first with isNil | starts
  · rcases stops.stops with isAll | ⟨notNil, _⟩
    · rw [isNil] at isAll
      cases isAll
    · exact absurd isNil notNil
  · exact starts

theorem stops_here {before rest more : List Chunk} {chunk : Chunk}
    (has : Ended (sent (before ++ [chunk]))) :
    Stops before (chunk :: rest) more ↔ more = [chunk] := by
  constructor
  · intro stops
    obtain ⟨later, rfl, _⟩ := stops.starts
    by_contra notAlone
    exact stops.notBefore [chunk] (List.prefix_append [chunk] later) (List.cons_ne_nil _ _)
      (fun same => notAlone same.symm) has
  · rintro rfl
    refine ⟨List.prefix_append [chunk] rest, .inr ⟨List.cons_ne_nil _ _, has⟩, ?_⟩
    refine forall_prefix_cons.mpr ⟨fun notAll => absurd rfl notAll, ?_⟩
    intro part isPart notNil
    exact absurd (List.prefix_nil.mp isPart) notNil

theorem stops_later {before rest more : List Chunk} {chunk : Chunk}
    (hasNot : ¬Ended (sent (before ++ [chunk]))) :
    Stops before (chunk :: rest) more ↔
      ∃ later, more = chunk :: later ∧ Stops (before ++ [chunk]) rest later := by
  constructor
  · intro stops
    obtain ⟨later, rfl, isLater⟩ := stops.starts
    refine ⟨later, rfl, isLater, ?_, ?_⟩
    · rcases stops.stops with isAll | ⟨_, ended⟩
      · exact .inl (List.cons.inj isAll).2
      · rw [List.append_cons] at ended
        by_cases alone : later = []
        · rw [alone, List.append_nil] at ended
          exact absurd ended hasNot
        · exact .inr ⟨alone, ended⟩
    · intro part isPart notNil notAll
      rw [← List.append_cons]
      exact (forall_prefix_cons.mp stops.notBefore).2 part isPart notNil
        fun same => notAll (List.cons.inj same).2
  · rintro ⟨later, rfl, stops⟩
    refine ⟨(List.prefix_cons_inj chunk).mpr stops.first, ?_, ?_⟩
    · rcases stops.stops with rfl | ⟨_, ended⟩
      · exact .inl rfl
      · rw [← List.append_cons] at ended
        exact .inr ⟨List.cons_ne_nil _ _, ended⟩
    · refine forall_prefix_cons.mpr ⟨fun _ => hasNot, ?_⟩
      intro part isPart notNil notAll
      rw [List.append_cons]
      exact stops.notBefore part isPart notNil fun same => notAll (by rw [same])

/-- The loop returns the text of the chunks that it stops with, if each of their parts has a good
size. -/
theorem receive_ok_iff {before rest : List Chunk} {text : List Byte} :
    receive rest (sent before).length (textOf before) = .ok text ↔
      ∃ more, Stops before rest more ∧
        (∀ part, part <+: more → part ≠ [] → Sized (before ++ part)) ∧
        textOf (before ++ more) = text := by
  induction rest generalizing before with
  | nil =>
      constructor
      · intro returned
        cases returned
        refine ⟨[], ⟨List.prefix_rfl, .inl rfl, ?_⟩, ?_, by rw [List.append_nil]⟩
        · intro part isPart notNil
          exact absurd (List.prefix_nil.mp isPart) notNil
        · intro part isPart notNil
          exact absurd (List.prefix_nil.mp isPart) notNil
      · rintro ⟨more, stops, _, rfl⟩
        rw [List.prefix_nil.mp stops.first, List.append_nil]
        rfl
  | cons chunk rest inductionHypothesis =>
      rw [receive_cons_ok_iff]
      by_cases has : Ended (sent (before ++ [chunk]))
      · constructor
        · rintro ⟨sized, ⟨_, text_eq⟩ | ⟨hasNot, _⟩⟩
          · refine ⟨[chunk], (stops_here has).mpr rfl, ?_, text_eq⟩
            refine forall_prefix_cons.mpr ⟨sized, ?_⟩
            intro part isPart notNil
            exact absurd (List.prefix_nil.mp isPart) notNil
          · exact absurd has hasNot
        · rintro ⟨more, stops, allSized, text_eq⟩
          obtain rfl := (stops_here has).mp stops
          exact ⟨(forall_prefix_cons.mp allSized).1, .inl ⟨has, text_eq⟩⟩
      · constructor
        · rintro ⟨sized, ⟨ended, _⟩ | ⟨_, returned⟩⟩
          · exact absurd ended has
          · obtain ⟨later, stops, allSized, text_eq⟩ := inductionHypothesis.mp returned
            rw [← List.append_cons] at text_eq
            refine ⟨chunk :: later, (stops_later has).mpr ⟨later, rfl, stops⟩, ?_, text_eq⟩
            refine forall_prefix_cons.mpr ⟨sized, ?_⟩
            intro part isPart notNil
            rw [List.append_cons]
            exact allSized part isPart notNil
        · rintro ⟨more, stops, allSized, text_eq⟩
          obtain ⟨later, rfl, stopsLater⟩ := (stops_later has).mp stops
          obtain ⟨sized, laterSized⟩ := forall_prefix_cons.mp allSized
          rw [List.append_cons] at text_eq
          refine ⟨sized, .inr ⟨has, inductionHypothesis.mpr ⟨later, stopsLater, ?_, text_eq⟩⟩⟩
          intro part isPart notNil
          rw [← List.append_cons]
          exact laterSized part isPart notNil

/-- The chunks that arrive before the proxy stops listening. -/
def Arrives (chunks received : List Chunk) : Prop := Stops [] chunks received

/-- The receive loop stays inside its arrays exactly when every part of what arrives has a good
size. -/
theorem receive_eq_ok {chunks : List Chunk} {text : List Byte} :
    receive chunks 0 [] = .ok text ↔
      ∃ received, Arrives chunks received ∧
        (∀ part, part <+: received → part ≠ [] → Sized part) ∧ textOf received = text :=
  @receive_ok_iff [] chunks text

end EE323.Proxy
