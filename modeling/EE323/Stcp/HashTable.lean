/-
Module: EE323.Stcp.HashTable
Purpose: The chained hash table that the macros of `mysock_hash.h` generate, for any key type, data
  type and hash function, and its refinement of a table that keeps every insertion of a key on a
  stack.  Without a second insertion of a live key the table is a finite map.
Main exports: Declaration, Table, hashGetEntry, hashInsert, hashLookup, hashLookupPtr,
  hashEntryExists, hashSetEntry, hashDelete, hashRun_eq_stackRun, hashRun_eq_mapRun
-/
import Mathlib.Logic.Function.Basic
import EE323.Lib.Ensures

namespace EE323.Stcp.HashTable

open EE323.Lib

/-- `struct tbl##_entry`.  A chain is the list of its entries, and a pointer into it the rest of the
list from there on. -/
structure Entry (K V : Type) where
  key : K
  data : V
deriving DecidableEq, Repr

/-- The buckets of a table. -/
abbrev Table (K V : Type) := Nat → List (Entry K V)

/-- The arguments of `HASH_TABLE_DECLARE_EXTENDED` that decide where a key goes. -/
structure Declaration (K : Type) where
  hashfn : K → Nat → Nat
  size : Nat

/-- The assertions of the macros. -/
inductive HashFault where
  | indexAssertion
  | insertAssertion
  | lookupAssertion
  | deleteAssertion
deriving DecidableEq, Repr

variable {K V : Type}

/-- A static table before its first use. -/
def Table.empty : Table K V := fun _ => []

section Operations

variable [DecidableEq K] (decl : Declaration K)

/-- `ndx = hashfn(key, size); assert(ndx < size)`. -/
def hashIndex (key : K) : Except HashFault Nat :=
  if decl.hashfn key decl.size < decl.size then .ok (decl.hashfn key decl.size)
  else .error .indexAssertion

/-- The walk along a chain to the first entry with the key. -/
def walk (key : K) (chain : List (Entry K V)) : List (Entry K V) :=
  chain.dropWhile fun entry => decide (entry.key ≠ key)

/-- `_hash_get_entry`: the chain from the entry on, empty for a null pointer. -/
def hashGetEntry (tbl : Table K V) (key : K) : Except HashFault (List (Entry K V)) := do
  let ndx ← hashIndex decl key
  return walk key (tbl ndx)

/-- `assert(_hash_get_entry(key) == tbl[ndx])`. -/
def checkHead (tbl : Table K V) (ndx : Nat) (entry : List (Entry K V)) :
    Except HashFault (Table K V) :=
  if entry.length = (tbl ndx).length then .ok tbl else .error .insertAssertion

/-- `_hash_insert`. -/
def hashInsert (tbl : Table K V) (key : K) (data : V) : Except HashFault (Table K V) := do
  let ndx ← hashIndex decl key
  let inserted := Function.update tbl ndx (⟨key, data⟩ :: tbl ndx)
  let entry ← hashGetEntry decl inserted key
  checkHead inserted ndx entry

/-- `assert(e); return e->data`. -/
def entryData : List (Entry K V) → Except HashFault V
  | [] => .error .lookupAssertion
  | entry :: _ => .ok entry.data

/-- `_hash_lookup`. -/
def hashLookup (tbl : Table K V) (key : K) : Except HashFault V := do
  let entry ← hashGetEntry decl tbl key
  entryData entry

/-- `_hash_lookup_ptr`. -/
def hashLookupPtr (tbl : Table K V) (key : K) : Except HashFault (Option V) := do
  let entry ← hashGetEntry decl tbl key
  return entry.head?.map Entry.data

/-- `_hash_entry_exists`. -/
def hashEntryExists (tbl : Table K V) (key : K) : Except HashFault Bool := do
  let entry ← hashGetEntry decl tbl key
  return !entry.isEmpty

/-- `e->data = data` at the first entry with the key. -/
def setFirst (key : K) (data : V) : List (Entry K V) → List (Entry K V)
  | [] => []
  | entry :: rest =>
      if entry.key = key then { entry with data := data } :: rest
      else entry :: setFirst key data rest

/-- The two branches of `_hash_set_entry`. -/
def setOrInsert (tbl : Table K V) (key : K) (data : V) (found : Bool) (ndx : Nat) :
    Except HashFault (Table K V) :=
  if found then .ok (Function.update tbl ndx (setFirst key data (tbl ndx)))
  else hashInsert decl tbl key data

/-- `_hash_set_entry`. -/
def hashSetEntry (tbl : Table K V) (key : K) (data : V) : Except HashFault (Table K V) := do
  let ndx ← hashIndex decl key
  let entry ← hashGetEntry decl tbl key
  setOrInsert decl tbl key data (!entry.isEmpty) ndx

/-- The loop of `_hash_delete`: the first entry with the key is unlinked. -/
def unlinkFirst (key : K) : List (Entry K V) → List (Entry K V)
  | [] => []
  | entry :: rest => if entry.key = key then rest else entry :: unlinkFirst key rest

/-- `assert(!_hash_get_entry(key))`. -/
def checkGone (tbl : Table K V) (entry : List (Entry K V)) : Except HashFault (Table K V) :=
  if entry.isEmpty then .ok tbl else .error .deleteAssertion

/-- `_hash_delete`. -/
def hashDelete (tbl : Table K V) (key : K) : Except HashFault (Table K V) := do
  let ndx ← hashIndex decl key
  let deleted := Function.update tbl ndx (unlinkFirst key (tbl ndx))
  let entry ← hashGetEntry decl deleted key
  checkGone deleted entry

/-- One use of a macro. -/
inductive HashOp (K V : Type) where
  | insert (key : K) (data : V)
  | setEntry (key : K) (data : V)
  | delete (key : K)
  | lookup (key : K)
  | lookupPtr (key : K)
  | entryExists (key : K)
deriving Repr

def HashOp.key : HashOp K V → K
  | .insert key _ => key
  | .setEntry key _ => key
  | .delete key => key
  | .lookup key => key
  | .lookupPtr key => key
  | .entryExists key => key

/-- What a use of a macro gives back. -/
inductive HashAnswer (V : Type) where
  | done
  | data (data : V)
  | pointer (data : Option V)
  | present (present : Bool)
deriving DecidableEq, Repr

def hashApply (tbl : Table K V) : HashOp K V → Except HashFault (HashAnswer V × Table K V)
  | .insert key data => do
      let tbl ← hashInsert decl tbl key data
      return (.done, tbl)
  | .setEntry key data => do
      let tbl ← hashSetEntry decl tbl key data
      return (.done, tbl)
  | .delete key => do
      let tbl ← hashDelete decl tbl key
      return (.done, tbl)
  | .lookup key => do
      let data ← hashLookup decl tbl key
      return (.data data, tbl)
  | .lookupPtr key => do
      let pointer ← hashLookupPtr decl tbl key
      return (.pointer pointer, tbl)
  | .entryExists key => do
      let present ← hashEntryExists decl tbl key
      return (.present present, tbl)

end Operations

/-! ### Sequences of operations -/

/-- The answers of a sequence of operations, up to the first that fails, and what became of it. -/
def answers {σ α β : Type} (apply : σ → α → Except HashFault (β × σ)) :
    σ → List α → List β × Option HashFault
  | _, [] => ([], none)
  | state, op :: rest =>
      match apply state op with
      | .error fault => ([], some fault)
      | .ok (answer, next) =>
          ((answer :: (answers apply next rest).1), (answers apply next rest).2)

/-- Two results agree when they fail alike, or answer alike and leave related states. -/
inductive Agrees {σ τ β : Type} (related : σ → τ → Prop) :
    Except HashFault (β × σ) → Except HashFault (β × τ) → Prop where
  | error (fault : HashFault) : Agrees related (.error fault) (.error fault)
  | ok {answer : β} {state : σ} {spec : τ} (holds : related state spec) :
      Agrees related (.ok (answer, state)) (.ok (answer, spec))

/-- Every operation of the sequence is admitted in the state it is applied to. -/
def AdmittedRun {τ α β : Type} (apply : τ → α → Except HashFault (β × τ))
    (Admitted : τ → α → Prop) :
    τ → List α → Prop
  | _, [] => True
  | spec, op :: rest =>
      Admitted spec op ∧
        ∀ answer next, apply spec op = .ok (answer, next) → AdmittedRun apply Admitted next rest

theorem admittedRun_trivial {τ α β : Type} (apply : τ → α → Except HashFault (β × τ)) (spec : τ)
    (ops : List α) : AdmittedRun apply (fun _ _ => True) spec ops := by
  induction ops generalizing spec with
  | nil => trivial
  | cons op rest inductionHypothesis => exact ⟨trivial, fun _ next _ => inductionHypothesis next⟩

/-- Two machines whose steps agree give the same answers to every admitted sequence. -/
theorem answers_eq_of_simulation {σ τ α β : Type} {apply : σ → α → Except HashFault (β × σ)}
    {applySpec : τ → α → Except HashFault (β × τ)} {related : σ → τ → Prop}
    {Admitted : τ → α → Prop}
    (simulates : ∀ state spec op, related state spec → Admitted spec op →
      Agrees related (apply state op) (applySpec spec op))
    {state : σ} {spec : τ} {ops : List α} (holds : related state spec)
    (admitted : AdmittedRun applySpec Admitted spec ops) :
    answers apply state ops = answers applySpec spec ops := by
  induction ops generalizing state spec with
  | nil => rfl
  | cons op rest inductionHypothesis =>
      have agrees := simulates state spec op holds admitted.1
      have later := admitted.2
      simp only [answers]
      generalize apply state op = one at agrees
      generalize applySpec spec op = two at agrees later
      cases agrees with
      | error fault => rfl
      | ok stillHolds => simp only [inductionHypothesis stillHolds (later _ _ rfl)]

/-! ### The stack of insertions of each key -/

/-- The live insertions of each key, the last one first. -/
abbrev Bindings (K V : Type) := K → List V

section Specification

variable [DecidableEq K] (inRange : K → Bool)

/-- A deletion takes the last insertion back, and asserts that it was the only one. -/
def stackDelete (bindings : Bindings K V) (key : K) : Except HashFault (Bindings K V) :=
  if (bindings key).tail.isEmpty then .ok (Function.update bindings key (bindings key).tail)
  else .error .deleteAssertion

/-- A lookup asserts that there is an insertion. -/
def stackLookup : List V → Except HashFault V
  | [] => .error .lookupAssertion
  | data :: _ => .ok data

/-- What the operations mean on keys the hash function sends into the table. -/
def stackEffect (bindings : Bindings K V) :
    HashOp K V → Except HashFault (HashAnswer V × Bindings K V)
  | .insert key data => .ok (.done, Function.update bindings key (data :: bindings key))
  | .setEntry key data => .ok (.done, Function.update bindings key (data :: (bindings key).tail))
  | .delete key => (stackDelete bindings key).map fun left => (.done, left)
  | .lookup key => (stackLookup (bindings key)).map fun data => (.data data, bindings)
  | .lookupPtr key => .ok (.pointer (bindings key).head?, bindings)
  | .entryExists key => .ok (.present !(bindings key).isEmpty, bindings)

def stackApply (bindings : Bindings K V) (op : HashOp K V) :
    Except HashFault (HashAnswer V × Bindings K V) :=
  if inRange op.key then stackEffect bindings op else .error .indexAssertion

/-- The finite map that the macros approximate. -/
def mapEffect (map : K → Option V) : HashOp K V → HashAnswer V × (K → Option V)
  | .insert key data => (.done, Function.update map key (some data))
  | .setEntry key data => (.done, Function.update map key (some data))
  | .delete key => (.done, Function.update map key none)
  | .lookup key => ((map key).elim .done .data, map)
  | .lookupPtr key => (.pointer (map key), map)
  | .entryExists key => (.present (map key).isSome, map)

def mapApply (map : K → Option V) (op : HashOp K V) :
    Except HashFault (HashAnswer V × (K → Option V)) :=
  .ok (mapEffect map op)

/-- The use the header documents: no insertion of a key that is there, and no `HASH_LOOKUP` of one
that is not. -/
def AsDocumented (map : K → Option V) : HashOp K V → Prop
  | .insert key _ => inRange key = true ∧ map key = none
  | .lookup key => inRange key = true ∧ (map key).isSome = true
  | op => inRange op.key = true

end Specification

section Refinement

variable [DecidableEq K] (decl : Declaration K)

/-- The keys that pass the assertion on the index. -/
def Declaration.covers (key : K) : Bool := decide (decl.hashfn key decl.size < decl.size)

/-- The insertions of a key, read off the chain of its bucket. -/
def liveIn (key : K) (chain : List (Entry K V)) : List V :=
  (chain.filter fun entry => decide (entry.key = key)).map Entry.data

/-- The insertions that a table holds. -/
def bindings (tbl : Table K V) : Bindings K V := fun key =>
  liveIn key (tbl (decl.hashfn key decl.size))

@[simp] theorem liveIn_nil (key : K) : liveIn key ([] : List (Entry K V)) = [] := rfl

theorem liveIn_cons (key : K) (entry : Entry K V) (rest : List (Entry K V)) :
    liveIn key (entry :: rest) =
      if entry.key = key then entry.data :: liveIn key rest else liveIn key rest := by
  by_cases same : entry.key = key
  · simp [liveIn, same]
  · simp [liveIn, same]

theorem walk_head (key : K) (chain : List (Entry K V)) :
    (walk key chain).head?.map Entry.data = (liveIn key chain).head? := by
  induction chain with
  | nil => rfl
  | cons entry rest inductionHypothesis =>
      rw [liveIn_cons]
      by_cases same : entry.key = key
      · simp [walk, same]
      · simpa [walk, same] using inductionHypothesis

theorem walk_isEmpty (key : K) (chain : List (Entry K V)) :
    (walk key chain).isEmpty = (liveIn key chain).isEmpty := by
  induction chain with
  | nil => rfl
  | cons entry rest inductionHypothesis =>
      rw [liveIn_cons]
      by_cases same : entry.key = key
      · simp [walk, same]
      · simpa [walk, same] using inductionHypothesis

theorem entryData_walk (key : K) (chain : List (Entry K V)) :
    entryData (walk key chain) = stackLookup (liveIn key chain) := by
  induction chain with
  | nil => rfl
  | cons entry rest inductionHypothesis =>
      rw [liveIn_cons]
      by_cases same : entry.key = key
      · simp [walk, same, entryData, stackLookup]
      · simpa [walk, same] using inductionHypothesis

theorem liveIn_unlinkFirst (key other : K) (chain : List (Entry K V)) :
    liveIn other (unlinkFirst key chain) =
      if other = key then (liveIn other chain).tail else liveIn other chain := by
  induction chain with
  | nil => simp [unlinkFirst]
  | cons entry rest inductionHypothesis =>
      simp only [unlinkFirst]
      by_cases same : entry.key = key
      · rw [if_pos same, liveIn_cons, same]
        by_cases asked : other = key
        · simp [asked]
        · simp [asked, Ne.symm asked]
      · rw [if_neg same, liveIn_cons, liveIn_cons, inductionHypothesis]
        by_cases asked : other = key
        · simp [asked, same]
        · simp [asked]

theorem liveIn_setFirst (key other : K) (data : V) {chain : List (Entry K V)}
    (present : (liveIn key chain).isEmpty = false) :
    liveIn other (setFirst key data chain) =
      if other = key then data :: (liveIn other chain).tail else liveIn other chain := by
  induction chain with
  | nil => simp at present
  | cons entry rest inductionHypothesis =>
      simp only [setFirst]
      by_cases same : entry.key = key
      · rw [if_pos same, liveIn_cons, liveIn_cons]
        by_cases asked : other = key
        · simp [asked, same]
        · simp [asked, same, Ne.symm asked]
      · rw [liveIn_cons, if_neg same] at present
        rw [if_neg same, liveIn_cons, liveIn_cons, inductionHypothesis present]
        by_cases asked : other = key
        · simp [asked, same]
        · simp [asked]

/-- A bucket rewritten for one key shows in the insertions of that key only. -/
theorem bindings_update {tbl : Table K V} {key : K} {chain : List (Entry K V)} {live : List V}
    (rewritten : ∀ other, liveIn other chain =
      if other = key then live else liveIn other (tbl (decl.hashfn key decl.size))) :
    bindings decl (Function.update tbl (decl.hashfn key decl.size) chain) =
      Function.update (bindings decl tbl) key live := by
  funext other
  simp only [bindings]
  by_cases asked : other = key
  · rw [asked, Function.update_self, Function.update_self, rewritten, if_pos rfl]
  · rw [Function.update_of_ne asked]
    by_cases collides : decl.hashfn other decl.size = decl.hashfn key decl.size
    · rw [collides, Function.update_self, rewritten, if_neg asked, ← collides]
      rfl
    · rw [Function.update_of_ne collides]
      rfl

variable {decl}

omit [DecidableEq K] in
theorem hashIndex_covered {key : K} (covered : decl.covers key = true) :
    hashIndex decl key = .ok (decl.hashfn key decl.size) :=
  if_pos (by simpa [Declaration.covers] using covered)

omit [DecidableEq K] in
theorem hashIndex_uncovered {key : K} (uncovered : ¬ decl.covers key = true) :
    hashIndex decl key = .error .indexAssertion :=
  if_neg (by simpa [Declaration.covers] using uncovered)

theorem hashGetEntry_covered {key : K} (covered : decl.covers key = true) (tbl : Table K V) :
    hashGetEntry decl tbl key = .ok (walk key (tbl (decl.hashfn key decl.size))) := by
  rw [hashGetEntry, hashIndex_covered covered]
  rfl

/-- An insertion always passes its own assertion. -/
theorem hashInsert_covered {key : K} (covered : decl.covers key = true) (tbl : Table K V)
    (data : V) :
    ∃ left, hashInsert decl tbl key data = .ok left ∧
      bindings decl left = Function.update (bindings decl tbl) key
        (data :: bindings decl tbl key) := by
  let ndx := decl.hashfn key decl.size
  refine ⟨Function.update tbl ndx (⟨key, data⟩ :: tbl ndx), ?_, bindings_update decl ?_⟩
  · rw [hashInsert, hashIndex_covered covered]
    refine bind_eq_ok.mpr ⟨_, rfl, bind_eq_ok.mpr ⟨_, hashGetEntry_covered covered _, ?_⟩⟩
    rw [checkHead, if_pos (by simp [walk])]
  · intro other
    rw [liveIn_cons]
    by_cases asked : other = key
    · simp [asked, bindings, ndx]
    · simp [asked, Ne.symm asked, ndx]

theorem hashSetEntry_covered {key : K} (covered : decl.covers key = true) (tbl : Table K V)
    (data : V) :
    ∃ left, hashSetEntry decl tbl key data = .ok left ∧
      bindings decl left =
        Function.update (bindings decl tbl) key (data :: (bindings decl tbl key).tail) := by
  have dispatch : hashSetEntry decl tbl key data =
      setOrInsert decl tbl key data (!(bindings decl tbl key).isEmpty)
        (decl.hashfn key decl.size) := by
    rw [hashSetEntry, hashIndex_covered covered, hashGetEntry_covered covered]
    simp only [bind, Except.bind, walk_isEmpty]
    rfl
  rw [dispatch]
  cases present : (bindings decl tbl key).isEmpty with
  | true =>
      obtain ⟨left, inserted, after⟩ := hashInsert_covered covered tbl data
      refine ⟨left, by simpa [setOrInsert] using inserted, ?_⟩
      rw [after, List.isEmpty_iff.mp present]
      rfl
  | false =>
      refine ⟨_, rfl, bindings_update decl ?_⟩
      intro other
      rw [liveIn_setFirst key other data present]
      by_cases asked : other = key
      · simp [asked, bindings]
      · simp [asked]

theorem hashDelete_covered {key : K} (covered : decl.covers key = true) (tbl : Table K V) :
    (hashDelete decl tbl key).map (bindings decl) = stackDelete (bindings decl tbl) key := by
  have after : bindings decl (Function.update tbl (decl.hashfn key decl.size)
      (unlinkFirst key (tbl (decl.hashfn key decl.size)))) =
        Function.update (bindings decl tbl) key (bindings decl tbl key).tail := by
    apply bindings_update
    intro other
    rw [liveIn_unlinkFirst]
    by_cases asked : other = key
    · simp [asked, bindings]
    · simp [asked]
  rw [hashDelete, hashIndex_covered covered]
  simp only [bind, Except.bind, hashGetEntry_covered covered, checkGone, walk_isEmpty, stackDelete]
  have emptied : liveIn key (Function.update tbl (decl.hashfn key decl.size)
      (unlinkFirst key (tbl (decl.hashfn key decl.size))) (decl.hashfn key decl.size)) =
        (bindings decl tbl key).tail :=
    (congrFun after key).trans (Function.update_self ..)
  rw [emptied]
  split
  · exact congrArg Except.ok after
  · rfl

/-- One use of a macro is one step of the stack of insertions. -/
theorem hashApply_agrees (decl : Declaration K) (tbl : Table K V) (op : HashOp K V) :
    Agrees (fun tbl live => bindings decl tbl = live) (hashApply decl tbl op)
      (stackApply decl.covers (bindings decl tbl) op) := by
  by_cases covered : decl.covers op.key = true
  · rw [stackApply, if_pos covered]
    cases op with
    | insert key data =>
        obtain ⟨left, inserted, after⟩ := hashInsert_covered covered tbl data
        simp only [HashOp.key] at inserted after
        simp only [hashApply, inserted, stackEffect]
        exact .ok after
    | setEntry key data =>
        obtain ⟨left, inserted, after⟩ := hashSetEntry_covered covered tbl data
        simp only [HashOp.key] at inserted after
        simp only [hashApply, inserted, stackEffect]
        exact .ok after
    | delete key =>
        have deleted := hashDelete_covered covered tbl
        simp only [HashOp.key] at deleted
        simp only [hashApply, stackEffect, ← deleted]
        cases hashDelete decl tbl key with
        | error fault => exact .error fault
        | ok left => exact .ok rfl
    | lookup key =>
        have found := hashGetEntry_covered covered tbl
        simp only [HashOp.key] at found
        simp only [hashApply, hashLookup, found, stackEffect, bindings, bind, Except.bind,
          entryData_walk]
        cases stackLookup (liveIn key (tbl (decl.hashfn key decl.size))) with
        | error fault => exact .error fault
        | ok data => exact .ok rfl
    | lookupPtr key =>
        have found := hashGetEntry_covered covered tbl
        simp only [HashOp.key] at found
        simp only [hashApply, hashLookupPtr, found, stackEffect, bindings, bind, Except.bind, pure,
          Except.pure, walk_head]
        exact .ok rfl
    | entryExists key =>
        have found := hashGetEntry_covered covered tbl
        simp only [HashOp.key] at found
        simp only [hashApply, hashEntryExists, found, stackEffect, bindings, bind, Except.bind,
          pure,
          Except.pure, walk_isEmpty]
        exact .ok rfl
  · rw [stackApply, if_neg covered]
    have failed := hashIndex_uncovered covered
    have refused : hashApply decl tbl op = .error .indexAssertion := by
      cases op with
      | _ =>
          simp only [HashOp.key] at failed
          simp [hashApply, hashInsert, hashSetEntry, hashDelete, hashLookup, hashLookupPtr,
            hashEntryExists, hashGetEntry, failed, bind, Except.bind]
    rw [refused]
    exact .error _

/-- Every sequence of operations on a fresh table is answered, and stopped by an assertion, as the
stacks of insertions say. -/
theorem hashRun_eq_stackRun (decl : Declaration K) (ops : List (HashOp K V)) :
    answers (hashApply decl) Table.empty ops =
      answers (stackApply decl.covers) (fun _ => []) ops := by
  have simulates : ∀ (tbl : Table K V) (live : Bindings K V) (op : HashOp K V),
      bindings decl tbl = live → True →
        Agrees (fun tbl live => bindings decl tbl = live) (hashApply decl tbl op)
          (stackApply decl.covers live op) := by
    intro tbl live op holds _
    rw [← holds]
    exact hashApply_agrees decl tbl op
  have empty : bindings decl (Table.empty : Table K V) = fun _ => [] := rfl
  exact answers_eq_of_simulation simulates empty (admittedRun_trivial _ _ _)

/-- A table in which no key was inserted twice is a finite map. -/
def Maps (decl : Declaration K) (tbl : Table K V) (map : K → Option V) : Prop :=
  ∀ key, bindings decl tbl key = (map key).toList

theorem Maps.same {tbl left : Table K V} {map : K → Option V} (maps : Maps decl tbl map)
    (after : bindings decl left = bindings decl tbl) : Maps decl left map := by
  intro key
  rw [after, maps]

theorem Maps.update {tbl left : Table K V} {map : K → Option V} {key : K}
    (maps : Maps decl tbl map) (data : Option V)
    (after : bindings decl left = Function.update (bindings decl tbl) key data.toList) :
    Maps decl left (Function.update map key data) := by
  intro other
  rw [after]
  by_cases asked : other = key
  · rw [asked, Function.update_self, Function.update_self]
  · rw [Function.update_of_ne asked, Function.update_of_ne asked, maps]

/-- What the stack of insertions answers, the table answers. -/
theorem hashApply_of_stack {tbl : Table K V} {op : HashOp K V} {answer : HashAnswer V}
    {live : Bindings K V} {next : K → Option V}
    (applied : stackApply decl.covers (bindings decl tbl) op = .ok (answer, live))
    (maps : ∀ left, bindings decl left = live → Maps decl left next) :
    Agrees (Maps decl) (hashApply decl tbl op) (.ok (answer, next)) := by
  have agrees := hashApply_agrees decl tbl op
  rw [applied] at agrees
  generalize hashApply decl tbl op = result at agrees ⊢
  cases agrees with
  | ok after => exact .ok (maps _ after)

/-- Used as documented, one use of a macro is one step of the finite map. -/
theorem hashApply_agrees_map {tbl : Table K V} {map : K → Option V} {op : HashOp K V}
    (maps : Maps decl tbl map) (documented : AsDocumented decl.covers map op) :
    Agrees (Maps decl) (hashApply decl tbl op) (mapApply map op) := by
  cases op with
  | insert key data =>
      obtain ⟨covered, absent⟩ := documented
      have held := maps key
      rw [absent] at held
      refine hashApply_of_stack (by rw [stackApply, HashOp.key, if_pos covered]; rfl) ?_
      exact fun left after => maps.update (some data) (by rw [after, held]; rfl)
  | setEntry key data =>
      have covered : decl.covers key = true := documented
      have held := maps key
      refine hashApply_of_stack (by rw [stackApply, HashOp.key, if_pos covered]; rfl) ?_
      refine fun left after => maps.update (some data) ?_
      rw [after, held]
      cases map key <;> rfl
  | delete key =>
      have covered : decl.covers key = true := documented
      have single : (bindings decl tbl key).tail = [] := by
        rw [maps key]
        cases map key <;> rfl
      have deleted : stackDelete (bindings decl tbl) key =
          .ok (Function.update (bindings decl tbl) key []) := by
        simp [stackDelete, single]
      refine hashApply_of_stack ?_ fun left after => maps.update none after
      rw [stackApply, HashOp.key, if_pos covered, stackEffect, deleted]
      rfl
  | lookup key =>
      obtain ⟨covered, present⟩ := documented
      obtain ⟨data, isData⟩ := Option.isSome_iff_exists.mp present
      have held := maps key
      rw [isData] at held
      rw [mapApply, mapEffect, isData]
      refine hashApply_of_stack ?_ fun left after => maps.same after
      rw [stackApply, HashOp.key, if_pos covered, stackEffect, held]
      rfl
  | lookupPtr key =>
      have covered : decl.covers key = true := documented
      refine hashApply_of_stack ?_ fun left after => maps.same after
      rw [stackApply, HashOp.key, if_pos covered, stackEffect, maps key]
      cases map key <;> rfl
  | entryExists key =>
      have covered : decl.covers key = true := documented
      refine hashApply_of_stack ?_ fun left after => maps.same after
      rw [stackApply, HashOp.key, if_pos covered, stackEffect, maps key]
      cases map key <;> rfl

/-- A sequence of documented uses never fails an assertion, and is answered as by the finite map. -/
theorem hashRun_eq_mapRun (decl : Declaration K) (ops : List (HashOp K V))
    (documented : AdmittedRun mapApply (AsDocumented decl.covers) (fun _ => none) ops) :
    answers (hashApply decl) Table.empty ops = answers mapApply (fun _ => none) ops := by
  have simulates : ∀ (tbl : Table K V) (map : K → Option V) (op : HashOp K V),
      Maps decl tbl map → AsDocumented decl.covers map op →
        Agrees (Maps decl) (hashApply decl tbl op) (mapApply map op) :=
    fun _ _ _ => hashApply_agrees_map
  exact answers_eq_of_simulation simulates (fun _ => rfl) documented

/-- Two keys that share a bucket, used as documented. -/
theorem hashRun_eq_mapRun_collision :
    answers (hashApply ⟨fun (key : Nat) size => key % size, 64⟩) Table.empty
        [.insert 80 'a', .insert 144 'b', .delete 80, .lookup 144, .lookupPtr 80] =
      answers mapApply (fun _ => none)
        [.insert 80 'a', .insert 144 'b', .delete 80, .lookup 144, .lookupPtr 80] :=
  hashRun_eq_mapRun _ _ (by
    simp [AdmittedRun, AsDocumented, mapApply, mapEffect, Declaration.covers, HashOp.key,
      Function.update])

end Refinement

end EE323.Stcp.HashTable
