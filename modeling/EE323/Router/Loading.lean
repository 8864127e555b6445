/-
Module: EE323.Router.Loading
Purpose: `sr_load_rt`, which reads the routing table from a file.  The four arrays of a line keep what the
  line before left in them, so a blank line adds the route before it again.  That changes no lookup, and
  the table that was there before and what the arrays started with do not matter either.
Main exports: scanWords, Words, loadLines, srLoadRt, Repeats, routeIn, load_forwards
-/
import EE323.Lib.CString
import EE323.Lib.Fgets
import EE323.Router.ArpCache

namespace EE323.Router

open EE323.Lib

/-! ### A line -/

/-- What `sscanf` finds for so many `%s`: words with space before them. -/
def scanWords : Nat → List Byte → List (List Byte)
  | 0, _ => []
  | count + 1, line =>
      let start := line.dropWhile isSpace
      if start = [] then []
      else start.takeWhile (!isSpace ·) :: scanWords count (start.dropWhile (!isSpace ·))

/-- The arrays `dest`, `gw`, `mask` and `iface`. -/
structure Words where
  dest : List Byte
  gw : List Byte
  mask : List Byte
  iface : List Byte
deriving DecidableEq, Repr

/-- The arrays that no word was found for keep their strings. -/
def Words.scanned (words : Words) : List (List Byte) → Words
  | [] => words
  | [dest] => { words with dest }
  | [dest, gw] => { words with dest, gw }
  | [dest, gw, mask] => { words with dest, gw, mask }
  | dest :: gw :: mask :: iface :: _ => ⟨dest, gw, mask, iface⟩

/-- A string of bytes as a name, as far as `strncpy` copies it. -/
def nameOf (word : List Byte) : String :=
  String.ofList ((word.take 32).map fun c => Char.ofNat c.toNat)

/-- The route that the arrays stand for, if `inet_aton` takes the addresses. -/
def Words.route (inetAton : List Byte → Option IpAddr) (words : Words) : Option Route := do
  let dest ← inetAton words.dest
  let gw ← inetAton words.gw
  let mask ← inetAton words.mask
  some ⟨dest, gw, mask, nameOf words.iface⟩

/-- What `sr_load_rt` comes to: a word that is longer than its array, or a value and the table. -/
inductive Loaded where
  | overflow
  | returned (value : Int) (table : List Route)
deriving DecidableEq, Repr

/-- `sr_add_rt_entry`. -/
def srAddRtEntry (table : List Route) (route : Route) : List Route :=
  table ++ [route]

/-- The loop of `sr_load_rt`. -/
def loadLines (inetAton : List Byte → Option IpAddr) :
    List (List Byte) → Words → Bool → List Route → Loaded
  | [], _, _, table => .returned 0 table
  | line :: rest, words, clearRoutingTable, table =>
      let found := scanWords 4 (cString line)
      if ∃ word ∈ found, 32 ≤ word.length then .overflow
      else
        let words := words.scanned found
        match words.route inetAton with
        | none => .returned (-1) table
        | some route =>
            let table := if clearRoutingTable then table else []
            loadLines inetAton rest words true (srAddRtEntry table route)

/-- `BUFSIZ`. -/
def bufsiz : Nat := 8192

/-- `sr_load_rt` on a file that can be read, with what the arrays start with. -/
def srLoadRt (inetAton : List Byte → Option IpAddr) (file : List Byte) (words : Words)
    (table : List Route) : Loaded :=
  loadLines inetAton (fgetsAll lineFeed (bufsiz - 1) file) words false table

/-! ### Routes that are there again -/

/-- A list, and the same with elements once more behind themselves. -/
inductive Repeats {α : Type} : List α → List α → Prop where
  | nil : Repeats [] []
  | next {short long : List α} (first : α) (rest : Repeats short long) :
      Repeats (first :: short) (first :: long)
  | again {short long : List α} {first : α} (rest : Repeats (first :: short) (first :: long)) :
      Repeats (first :: short) (first :: first :: long)

theorem Repeats.mem_iff {α : Type} {short long : List α} (repeats : Repeats short long) (element : α) :
    element ∈ long ↔ element ∈ short := by
  induction repeats with
  | nil => rfl
  | next first rest inductionHypothesis =>
      rw [List.mem_cons, List.mem_cons, inductionHypothesis]
  | again rest inductionHypothesis =>
      rw [List.mem_cons, inductionHypothesis, List.mem_cons]
      tauto

/-- A route that was just looked at is not better than itself. -/
theorem lpmScan_again (ipDst : IpAddr) (entry : Route) (rest : List Route) (best : Option Route)
    (top : IpAddr) :
    lpmScan ipDst (entry :: entry :: rest) best top = lpmScan ipDst (entry :: rest) best top := by
  by_cases better : entry.Matches ipDst ∧ top < entry.mask
  · have notBetter : ¬(entry.Matches ipDst ∧ entry.mask < entry.mask) :=
      fun again => absurd again.2 (BitVec.lt_irrefl _)
    rw [lpmScan, if_pos better, lpmScan, if_neg notBetter, lpmScan, if_pos better]
  · rw [lpmScan, if_neg better]

theorem Repeats.lpmScan_eq {short long : List Route} (repeats : Repeats short long) (ipDst : IpAddr)
    (best : Option Route) (top : IpAddr) :
    lpmScan ipDst long best top = lpmScan ipDst short best top := by
  induction repeats generalizing best top with
  | nil => rfl
  | next first rest inductionHypothesis =>
      rw [lpmScan, lpmScan, inductionHypothesis, inductionHypothesis]
  | again rest inductionHypothesis =>
      rw [lpmScan_again, inductionHypothesis]

theorem Repeats.verify_iff {short long : List Route} (repeats : Repeats short long)
    (ifList : List Interface) :
    srVerifyRoutingTable ⟨ifList, long⟩ = 0 ↔ srVerifyRoutingTable ⟨ifList, short⟩ = 0 := by
  have same := repeats.mem_iff
  have empty : long = [] ↔ short = [] := by
    rw [List.eq_nil_iff_forall_not_mem, List.eq_nil_iff_forall_not_mem]
    simp only [same]
  unfold srVerifyRoutingTable
  simp only [empty]
  split
  · rfl
  · simp only [List.length_eq_zero_iff, List.filter_eq_nil_iff, same]

/-! ### Lines and routes -/

theorem dropWhile_append_false {α : Type} {p : α → Bool} {last : α} (isFalse : p last = false)
    (front : List α) : (front ++ [last]).dropWhile p = front.dropWhile p ++ [last] := by
  induction front with
  | nil => simp [isFalse]
  | cons first rest inductionHypothesis =>
      rw [List.cons_append, List.dropWhile_cons, List.dropWhile_cons]
      split
      · exact inductionHypothesis
      · rfl

theorem takeWhile_append_false {α : Type} {p : α → Bool} {last : α} (isFalse : p last = false)
    (front : List α) : (front ++ [last]).takeWhile p = front.takeWhile p := by
  induction front with
  | nil => simp [isFalse]
  | cons first rest inductionHypothesis =>
      rw [List.cons_append, List.takeWhile_cons, List.takeWhile_cons, inductionHypothesis]

theorem scanWords_newline (count : Nat) (line : List Byte) :
    scanWords count (line ++ [lineFeed]) = scanWords count line := by
  induction count generalizing line with
  | zero => rfl
  | succ count inductionHypothesis =>
      have isEnd : (!isSpace lineFeed) = false := by decide
      rw [scanWords, scanWords, List.dropWhile_append]
      by_cases blank : line.dropWhile isSpace = []
      · rw [blank]
        rfl
      · obtain ⟨first, rest, start⟩ := List.exists_cons_of_ne_nil blank
        rw [start]
        simp only [List.isEmpty_cons, Bool.false_eq_true, if_false, List.cons_append, reduceCtorEq]
        rw [← List.cons_append, takeWhile_append_false (p := fun c => !isSpace c) isEnd,
          dropWhile_append_false (p := fun c => !isSpace c) isEnd, inductionHypothesis]

/-- The words of a line. -/
def lineWords (line : List Byte) : List (List Byte) :=
  scanWords 4 (cString line)

theorem lineWords_newline (line : List Byte) : lineWords (line ++ [lineFeed]) = lineWords line := by
  unfold lineWords
  by_cases zero : 0 ∈ line
  · obtain ⟨front, back, rfl, noZero⟩ := List.eq_append_cons_of_mem zero
    rw [List.append_assoc, List.cons_append, cString_append_zero noZero, cString_append_zero noZero]
  · have noZero : 0 ∉ line ++ [lineFeed] := by
      rw [List.mem_append, not_or]
      exact ⟨zero, by decide⟩
    rw [cString_eq_self zero, cString_eq_self noZero, scanWords_newline]

/-- The route of a line with four words. -/
def routeIn (inetAton : List Byte → Option IpAddr) (line : List Byte) : Option Route :=
  match lineWords line with
  | [dest, gw, mask, iface] => Words.route inetAton ⟨dest, gw, mask, iface⟩
  | _ => none

/-- A line that is blank, or has a route in words that fit the arrays. -/
def Fine (inetAton : List Byte → Option IpAddr) (line : List Byte) : Prop :=
  lineWords line = [] ∨
    (∀ word ∈ lineWords line, word.length < 32) ∧ (routeIn inetAton line).isSome

instance (inetAton : List Byte → Option IpAddr) (line : List Byte) : Decidable (Fine inetAton line) :=
  inferInstanceAs (Decidable (_ ∨ _ ∧ _))

section Loading

variable {inetAton : List Byte → Option IpAddr}

theorem routeIn_newline (line : List Byte) : routeIn inetAton (line ++ [lineFeed]) =
    routeIn inetAton line := by
  rw [routeIn, lineWords_newline, routeIn]

theorem fine_newline (line : List Byte) : Fine inetAton (line ++ [lineFeed]) ↔ Fine inetAton line := by
  rw [Fine, lineWords_newline, routeIn_newline, Fine]

/-- Behind a line with a route the arrays stand for it. -/
theorem scanned_route {line : List Byte} {route : Route}
    (isRoute : routeIn inetAton line = some route) (words : Words) :
    (words.scanned (lineWords line)).route inetAton = some route := by
  unfold routeIn at isRoute
  split at isRoute
  next isWords =>
    rw [isWords]
    exact isRoute
  next => cases isRoute

/-- A line with a route adds it. -/
theorem loadLines_route {line : List Byte} {route : Route} (rest : List (List Byte)) (words : Words)
    (cleared : Bool) (table : List Route) (isRoute : routeIn inetAton line = some route)
    (fits : ∀ word ∈ lineWords line, word.length < 32) :
    loadLines inetAton (line :: rest) words cleared table =
      loadLines inetAton rest (words.scanned (lineWords line)) true
        (srAddRtEntry (if cleared then table else []) route) := by
  have hasRoute := scanned_route isRoute words
  have noOverflow : ¬∃ word ∈ lineWords line, 32 ≤ word.length :=
    fun ⟨word, isWord, long⟩ => absurd (fits word isWord) (Nat.not_lt.mpr long)
  rw [loadLines]
  unfold lineWords at noOverflow hasRoute ⊢
  simp only [if_neg noOverflow, hasRoute]

/-- A blank line adds the route that the arrays still hold. -/
theorem loadLines_blank {line : List Byte} {route : Route} (rest : List (List Byte)) {words : Words}
    (table : List Route) (blank : lineWords line = []) (hasRoute : words.route inetAton = some route) :
    loadLines inetAton (line :: rest) words true table =
      loadLines inetAton rest words true (srAddRtEntry table route) := by
  unfold lineWords at blank
  rw [loadLines]
  simp [blank, Words.scanned, hasRoute]

/-- What the lines add does not depend on more of the arrays than the route that they stand for. -/
theorem loadLines_fine {lines : List (List Byte)} (fine : ∀ line ∈ lines, Fine inetAton line)
    (route : Route) :
    ∃ more,
      (∀ words table, words.route inetAton = some route →
        loadLines inetAton lines words true table = .returned 0 (table ++ more)) ∧
      Repeats (route :: lines.filterMap (routeIn inetAton)) (route :: more) := by
  induction lines generalizing route with
  | nil =>
      refine ⟨[], fun words table _ => ?_, .next route .nil⟩
      rw [List.append_nil]
      rfl
  | cons line lines inductionHypothesis =>
      have restFine := fun other member => fine other (List.mem_cons_of_mem line member)
      rcases fine line List.mem_cons_self with blank | ⟨fits, isSome⟩
      · obtain ⟨more, loads, repeats⟩ := inductionHypothesis restFine route
        have noRoute : routeIn inetAton line = none := by
          rw [routeIn, blank]
        refine ⟨route :: more, fun words table hasRoute => ?_, ?_⟩
        · rw [loadLines_blank lines table blank hasRoute, loads words _ hasRoute, srAddRtEntry,
            List.append_assoc]
          rfl
        · rw [List.filterMap_cons, noRoute]
          exact .again repeats
      · obtain ⟨next, isRoute⟩ := Option.isSome_iff_exists.mp isSome
        obtain ⟨more, loads, repeats⟩ := inductionHypothesis restFine next
        refine ⟨next :: more, fun words table _ => ?_, ?_⟩
        · rw [loadLines_route lines words true table isRoute fits,
            loads _ _ (scanned_route isRoute words), srAddRtEntry, if_pos rfl, List.append_assoc]
          rfl
        · rw [List.filterMap_cons, isRoute]
          exact .next route repeats

/-- The calls of `fgets` return the lines of the file, as far as the routes go. -/
structure Calls (inetAton : List Byte → Option IpAddr) (lines pieces : List (List Byte)) : Prop where
  routes : pieces.filterMap (routeIn inetAton) = lines.filterMap (routeIn inetAton)
  fine : (∀ line ∈ lines, Fine inetAton line) → ∀ piece ∈ pieces, Fine inetAton piece
  first : ∀ line ∈ lines.head?, (routeIn inetAton line).isSome →
    ∃ piece rest, pieces = piece :: rest ∧ (routeIn inetAton piece).isSome

theorem calls_fgetsAll (inetAton : List Byte → Option IpAddr) {file : List Byte}
    (short : ∀ line ∈ linesOf lineFeed file, line.length < bufsiz - 1) :
    Calls inetAton (linesOf lineFeed file) (fgetsAll lineFeed (bufsiz - 1) file) := by
  apply fgetsAll_short (by decide) short
  · exact ⟨rfl, fun _ piece isPiece => absurd isPiece List.not_mem_nil, fun line isLine isRoute => by
      cases isLine
      cases isRoute⟩
  · intro line _
    refine ⟨rfl, fun fine => fine, fun other isOther isRoute => ?_⟩
    cases isOther
    exact ⟨line, [], rfl, isRoute⟩
  · intro line lines pieces calls
    refine ⟨?_, fun fine piece isPiece => ?_, fun other isOther isRoute => ?_⟩
    · rw [List.filterMap_cons, routeIn_newline, List.filterMap_cons, calls.routes]
    · rcases List.mem_cons.mp isPiece with rfl | isLater
      · exact (fine_newline line).mpr (fine line List.mem_cons_self)
      · exact calls.fine (fun other member => fine other (List.mem_cons_of_mem _ member)) piece isLater
    · cases isOther
      exact ⟨_, pieces, rfl, by rwa [routeIn_newline]⟩

/-- A file whose lines are blank or have a route, the first one with a route.  Whatever table there
was and whatever the arrays held, what is loaded finds the same route for every address as the
routes in the file, and has an interface for every route when these do, also where blank lines
repeat a route. -/
theorem load_forwards {file : List Byte}
    (short : ∀ line ∈ linesOf lineFeed file, line.length < bufsiz - 1)
    (fine : ∀ line ∈ linesOf lineFeed file, Fine inetAton line)
    (starts : ∃ line rest, linesOf lineFeed file = line :: rest ∧ (routeIn inetAton line).isSome) :
    ∃ table, (∀ words old, srLoadRt inetAton file words old = .returned 0 table) ∧
      (∀ ipDst, srFindLPMentry table ipDst =
        srFindLPMentry ((linesOf lineFeed file).filterMap (routeIn inetAton)) ipDst) ∧
      ∀ ifList, srVerifyRoutingTable ⟨ifList, table⟩ = 0 ↔
        srVerifyRoutingTable ⟨ifList, (linesOf lineFeed file).filterMap (routeIn inetAton)⟩ = 0 := by
  obtain ⟨routes, piecesFine, firstPiece⟩ := calls_fgetsAll inetAton short
  obtain ⟨line, others, isLines, hasFirst⟩ := starts
  obtain ⟨piece, rest, isPieces, isSome⟩ := firstPiece line (by rw [isLines]; rfl) hasFirst
  obtain ⟨route, isRoute⟩ := Option.isSome_iff_exists.mp isSome
  have allFine := piecesFine fine
  rw [isPieces] at allFine
  have fits : ∀ word ∈ lineWords piece, word.length < 32 := by
    rcases allFine piece List.mem_cons_self with blank | ⟨fits, -⟩
    · intro word isWord
      rw [blank] at isWord
      exact absurd isWord List.not_mem_nil
    · exact fits
  obtain ⟨more, loads, repeats⟩ :=
    loadLines_fine (fun other member => allFine other (List.mem_cons_of_mem _ member)) route
  have inFile : Repeats ((linesOf lineFeed file).filterMap (routeIn inetAton)) (route :: more) := by
    rw [← routes, isPieces, List.filterMap_cons, isRoute]
    exact repeats
  refine ⟨route :: more, fun words old => ?_, fun ipDst => inFile.lpmScan_eq ipDst none 0,
    inFile.verify_iff⟩
  rw [srLoadRt, isPieces, loadLines_route rest words false old isRoute fits,
    loads _ _ (scanned_route isRoute words)]
  rfl

end Loading

/-- `inet_aton` on four numbers of one decimal digit. -/
def dottedDigits : List Byte → Option IpAddr
  | [a, 0x2e, b, 0x2e, c, 0x2e, d] => some (ofBe32 [a - 0x30, b - 0x30, c - 0x30, d - 0x30])
  | _ => none

/-- A default route, a blank line and a route without a newline behind it. -/
def blankFile : List Byte :=
  "0.0.0.0 1.2.3.4 0.0.0.0 eth1\n\n4.0.0.0 4.0.0.1 4.0.0.0 eth2".toList.map fun c => c.toNat.toUInt8

theorem load_forwards_blank :
    ∃ table, (∀ words old, srLoadRt dottedDigits blankFile words old = .returned 0 table) ∧
      ∀ ipDst, srFindLPMentry table ipDst =
        srFindLPMentry
          [⟨0, 0x01020304, 0, "eth1"⟩, ⟨0x04000000, 0x04000001, 0x04000000, "eth2"⟩] ipDst := by
  have short : ∀ line ∈ linesOf lineFeed blankFile, line.length < bufsiz - 1 := by decide +kernel
  have fine : ∀ line ∈ linesOf lineFeed blankFile, Fine dottedDigits line := by decide +kernel
  have routes : (linesOf lineFeed blankFile).filterMap (routeIn dottedDigits) =
      [⟨0, 0x01020304, 0, "eth1"⟩, ⟨0x04000000, 0x04000001, 0x04000000, "eth2"⟩] := by
    decide +kernel
  have starts : ∃ line rest, linesOf lineFeed blankFile = line :: rest ∧
      (routeIn dottedDigits line).isSome := ⟨_, _, rfl, by decide +kernel⟩
  obtain ⟨table, loads, finds, -⟩ := load_forwards short fine starts
  exact ⟨table, loads, fun ipDst => by rw [finds, routes]⟩

end EE323.Router
