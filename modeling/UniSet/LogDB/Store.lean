/-
**`LogDB`: from the buffer into the database.**

Lines are put into a buffer; when it holds enough of them they are inserted into the table in one
transaction, and the oldest records above a limit are deleted. The limit is found by two queries whose
answers are texts, read as numbers of 32 bits. `BEGIN` and `COMMIT` are taken to succeed.

* `flushBuffer`, `rotateDB`, `Statements` — the writing, with the statements that fail.
* `machine` — whole runs: lines that come, checks of the buffer, the end of the program.
* `asInt_eq` — what is read where the database answers with a number.
* **`table_newest`** — while the database works and fewer than `2 ^ 31` lines have come, the table holds
  the newest of the lines written, and the lines written and those in the buffer are all lines.
* **`flush_by_id`** — what is left after a rotation in any state: the newest records while the
  identifiers are below `2 ^ 31`, nothing while they are below `2 ^ 32`, and everything above that.
-/

import Mathlib.Algebra.Group.Int.Defs
import Mathlib.Algebra.Group.Nat.Defs
import Mathlib.Data.List.DropRight
import Mathlib.Data.List.Pairwise
import UniSet.Core.Split
import UniSet.Lib.Machine

namespace UniSet.LogDB

/-! ### Numbers in answers -/

/-- `as_int` of the answer `n`: the text of a number, read by `uni_atoi`. -/
def asInt (n : Nat) : Int := Core.uniAtoi (Nat.toDigits 10 n)

/-- The cast to `size_t`. -/
def toSize (n : Int) : Nat := (n % 2 ^ 64).toNat

section Digits

open UniSet.Core (Str digit number uniAtoi fromCharsUnsigned)

theorem digit_of_isDigit {c : Char} (isDigit : c.isDigit = true) :
    digit 10 c = some (c.toNat - '0'.toNat) := by
  have range : '0' ≤ c ∧ c ≤ '9' := by
    simpa [Char.isDigit, Char.le_def] using isDigit
  have small : c.toNat - 48 < 10 := by
    have high := range.2
    rw [Char.le_def, UInt32.le_iff_toNat_le] at high
    have nine : ('9' : Char).val.toNat = 57 := rfl
    show c.val.toNat - 48 < 10
    omega
  rw [digit]
  simp only [if_pos range]
  simpa using small

/-- A text of digits is read as the number it writes. -/
theorem number_digits {s : Str} (digits : ∀ c ∈ s, c.isDigit = true) :
    number 10 s = Nat.ofDigitChars 10 s 0 := by
  rw [Core.number_of_digits fun c member => digit_of_isDigit (digits c member), List.foldl_map,
    Nat.ofDigitChars]
  simp only [Nat.mul_comm]

/-- **What is read where the answer is a number**: the number below `2 ^ 31`, a negative one below
`2 ^ 32`, and zero from there on. -/
theorem asInt_eq (n : Nat) :
    asInt n = if n < 2 ^ 31 then (n : Int) else if n < 2 ^ 32 then (n : Int) - 2 ^ 32 else 0 := by
  have digits : ∀ c ∈ Nat.toDigits 10 n, c.isDigit = true := fun c member =>
    Nat.isDigit_of_mem_toDigits (by decide) (by decide) member
  have unsigned : uniAtoi (Nat.toDigits 10 n)
      = Core.toInt (fromCharsUnsigned 10 (Nat.toDigits 10 n)) := by
    unfold uniAtoi
    split
    · exact absurd (digits '-' (by simp [*])) (by decide)
    · exact absurd (digits '-' (by simp [*])) (by decide)
    · exact absurd (digits 'x' (by simp [*])) (by decide)
    · rfl
  rw [asInt, unsigned, fromCharsUnsigned, number_digits digits, Nat.ofDigitChars_ten_toDigits]
  unfold Core.toInt
  split_ifs <;> simp only [Int.bmod_def] <;> omega

end Digits

/-! ### The buffer and the table -/

/-- A record of the table `logs`: its key and the line. -/
structure Row (Line : Type) where
  id : Nat
  line : Line
deriving DecidableEq, Repr

structure Config where
  qbufSize : Nat
  maxdbRecords : Nat
  numOverflow : Nat
deriving DecidableEq, Repr

/-- What the statements of one writing come to: whether there is a connection, which lines get into the
table, and whether the two queries are answered and the records deleted. -/
structure Statements where
  isConnection : Bool
  insert : Nat → Bool
  count : Bool
  first : Bool
  delete : Bool

/-- The buffer and the table in the order of its keys; `seq` is the last key given, `written` are the
lines that got into the table. -/
structure Store (Line : Type) where
  qbuf : List Line := []
  rows : List (Row Line) := []
  seq : Nat := 0
  written : List Line := []
deriving DecidableEq, Repr

variable {Line : Type}

/-- A record with the next key, as long as there is one. -/
def Store.insert (s : Store Line) (line : Line) : Store Line :=
  if s.seq + 1 < 2 ^ 63 then
    { s with rows := s.rows ++ [⟨s.seq + 1, line⟩], seq := s.seq + 1, written := s.written ++ [line] }
  else s

/-- The loop of `flushBuffer`; a line whose statement fails is lost. -/
def insertAll (db : Statements) : Nat → List Line → Store Line → Store Line
  | _, [], s => { s with qbuf := [] }
  | k, line :: lines, s => insertAll db (k + 1) lines (if db.insert k then s.insert line else s)

/-- `getCountOfRecords`. -/
def getCountOfRecords (db : Statements) (s : Store Line) : Nat :=
  if db.count then toSize (asInt s.rows.length) else 0

/-- `SELECT id FROM logs order by id DESC limit n,1`. -/
def selectId (rows : List (Row Line)) (n : Nat) : Option Nat := (rows.reverse[n]?).map Row.id

/-- `getFirstOfOldRecord`. -/
def getFirstOfOldRecord (db : Statements) (s : Store Line) (maxnum : Nat) : Nat :=
  if db.first then (selectId s.rows maxnum).elim 0 fun id => toSize (asInt id) else 0

/-- `DELETE FROM logs WHERE id <= n`. -/
def Store.deleteUpTo (s : Store Line) (n : Nat) : Store Line :=
  { s with rows := s.rows.filter fun row => n < row.id }

/-- `rotateDB`. -/
def rotateDB (config : Config) (db : Statements) (s : Store Line) : Store Line :=
  if config.maxdbRecords = 0 then s
  else if getCountOfRecords db s ≤ config.numOverflow then s
  else if db.delete then s.deleteUpTo (getFirstOfOldRecord db s config.numOverflow)
  else s

/-- `flushBuffer`. -/
def flushBuffer (config : Config) (db : Statements) (s : Store Line) : Store Line :=
  if s.qbuf = [] ∨ db.isConnection = false then s
  else rotateDB config db (insertAll db 0 s.qbuf s)

/-- What happens: a line comes, the buffer is checked by the timer or for a line, the program ends. -/
inductive Event (Line : Type)
  | addLog (line : Line)
  | onCheckBuffer (db : Statements)
  | onTerminate (db : Statements)

def step (config : Config) (s : Store Line) : Event Line → Store Line
  | .addLog line => { s with qbuf := s.qbuf ++ [line] }
  | .onCheckBuffer db => if config.qbufSize ≤ s.qbuf.length then flushBuffer config db s else s
  | .onTerminate db => flushBuffer config db s

/-- **The keys**: in their order, from one to the last one given, and no more records than keys. -/
structure Keyed (s : Store Line) : Prop where
  sorted : s.rows.Pairwise fun a b => a.id < b.id
  given : ∀ row ∈ s.rows, 0 < row.id ∧ row.id ≤ s.seq
  few : s.rows.length ≤ s.seq
  bound : s.seq < 2 ^ 63

/-- **The program as a machine**, from the table of an earlier run. -/
def machine (config : Config) : Lib.Machine (Store Line) (Event Line) where
  start s := s.qbuf = [] ∧ Keyed s ∧ s.written = s.rows.map Row.line
  step s event := some (step config s event)

/-! ### The keys -/

section Keys

variable {s : Store Line} {config : Config} {db : Statements}

theorem Keyed.insert (keyed : Keyed s) (line : Line) : Keyed (s.insert line) := by
  unfold Store.insert
  split_ifs with more
  · refine ⟨?_, ?_, ?_, more⟩
    · refine List.pairwise_append.mpr ⟨keyed.sorted, List.pairwise_singleton _ _, ?_⟩
      intro row member new here
      obtain rfl := List.mem_singleton.mp here
      exact Nat.lt_succ_of_le (keyed.given row member).2
    · intro row member
      obtain member | member := List.mem_append.mp member
      · exact ⟨(keyed.given row member).1, Nat.le_succ_of_le (keyed.given row member).2⟩
      · obtain rfl := List.mem_singleton.mp member
        exact ⟨Nat.succ_pos _, Nat.le_refl _⟩
    · simpa using keyed.few
  · exact keyed

theorem Keyed.insertAll (keyed : Keyed s) (k : Nat) (lines : List Line) :
    Keyed (insertAll db k lines s) := by
  induction lines generalizing k s with
  | nil => exact ⟨keyed.sorted, keyed.given, keyed.few, keyed.bound⟩
  | cons line lines ih =>
    rw [LogDB.insertAll]
    refine ih ?_ (k + 1)
    split_ifs
    · exact keyed.insert line
    · exact keyed

theorem Keyed.deleteUpTo (keyed : Keyed s) (n : Nat) : Keyed (s.deleteUpTo n) :=
  ⟨keyed.sorted.filter _, fun row member => keyed.given row (List.mem_filter.mp member).1,
    (List.length_filter_le _ _).trans keyed.few, keyed.bound⟩

theorem Keyed.rotateDB (keyed : Keyed s) : Keyed (rotateDB config db s) := by
  unfold LogDB.rotateDB
  split_ifs
  · exact keyed
  · exact keyed
  · exact keyed.deleteUpTo _
  · exact keyed

theorem Keyed.flushBuffer (keyed : Keyed s) : Keyed (flushBuffer config db s) := by
  unfold LogDB.flushBuffer
  split_ifs
  · exact keyed
  · exact (keyed.insertAll 0 s.qbuf).rotateDB

theorem Keyed.step (keyed : Keyed s) (event : Event Line) : Keyed (step config s event) := by
  cases event with
  | addLog line => exact ⟨keyed.sorted, keyed.given, keyed.few, keyed.bound⟩
  | onCheckBuffer db =>
    unfold LogDB.step
    dsimp only
    split_ifs
    · exact keyed.flushBuffer
    · exact keyed
  | onTerminate db => exact keyed.flushBuffer

/-- The keys are in order in every state of every run. -/
theorem keyed_of_reachable {t : Store Line}
    (reachable : (machine config).Reachable (fun _ _ => True) t) : Keyed t := by
  obtain ⟨s, events, start, meets, ran⟩ := reachable
  refine Lib.Machine.run_invariant (fun s event t keyed _ stepped => ?_) start.2.1 meets ran
  obtain rfl := Option.some.inj stepped
  exact keyed.step event

end Keys

/-! ### The rotation -/

section Rotation

variable {s : Store Line} {config : Config} {db : Statements}

theorem toSize_small {n : Nat} (small : n < 2 ^ 31) : toSize (asInt n) = n := by
  rw [asInt_eq, if_pos small, toSize]
  omega

theorem exists_oldest {rows : List (Row Line)} {n : Nat} (more : n < rows.length) :
    ∃ older old newer, rows = older ++ old :: newer ∧ newer.length = n ∧
      selectId rows n = some old.id := by
  have inside : rows.length - 1 - n < rows.length := by omega
  refine ⟨rows.take (rows.length - 1 - n), rows[rows.length - 1 - n],
    rows.drop (rows.length - 1 - n + 1), ?_, ?_, ?_⟩
  · rw [List.getElem_cons_drop, List.take_append_drop]
  · rw [List.length_drop]
    omega
  · rw [selectId, List.getElem?_reverse more, List.getElem?_eq_getElem inside, Option.map_some]

/-- The records with a greater key are the newer ones. -/
theorem filter_newer {older newer : List (Row Line)} {old : Row Line}
    (sorted : (older ++ old :: newer).Pairwise fun a b => a.id < b.id) :
    (older ++ old :: newer).filter (fun row => old.id < row.id) = newer := by
  obtain ⟨-, later, before⟩ := List.pairwise_append.mp sorted
  obtain ⟨after, -⟩ := List.pairwise_cons.mp later
  rw [List.filter_append, List.filter_eq_nil_iff.mpr, List.nil_append, List.filter_cons_of_neg (by simp),
    List.filter_eq_self.mpr]
  · exact fun row member => decide_eq_true (after row member)
  · intro row member
    have := before row member old List.mem_cons_self
    simp only [decide_eq_true_eq]
    omega

/-- **One rotation** with answers to all of its statements, by the key of the record behind those that
are to stay. -/
theorem rotateDB_rows (keyed : Keyed s) (answers : db.count ∧ db.first ∧ db.delete)
    (limited : config.maxdbRecords ≠ 0) (few : s.rows.length < 2 ^ 31) :
    (s.rows.length ≤ config.numOverflow → (rotateDB config db s).rows = s.rows) ∧
    (config.numOverflow < s.rows.length → ∃ older old newer, s.rows = older ++ old :: newer ∧
      newer.length = config.numOverflow ∧
      (rotateDB config db s).rows
        = if old.id < 2 ^ 31 then newer else if old.id < 2 ^ 32 then [] else s.rows) := by
  have number : getCountOfRecords db s = s.rows.length := by
    rw [getCountOfRecords, if_pos answers.1, toSize_small few]
  rw [rotateDB, if_neg limited, number]
  refine ⟨fun fits => by rw [if_pos fits], fun more => ?_⟩
  obtain ⟨older, old, newer, split, length, selected⟩ := exists_oldest more
  refine ⟨older, old, newer, split, length, ?_⟩
  rw [if_neg (Nat.not_le_of_lt more), if_pos answers.2.2, getFirstOfOldRecord, if_pos answers.2.1, selected]
  have member : old ∈ s.rows := by simp [split]
  have high := keyed.bound
  by_cases small : old.id < 2 ^ 31
  · rw [if_pos small, Option.elim_some, toSize_small small]
    have sorted := keyed.sorted
    rw [split] at sorted
    rw [Store.deleteUpTo, split]
    exact filter_newer sorted
  · rw [if_neg small, Option.elim_some, asInt_eq, if_neg small, Store.deleteUpTo]
    by_cases wrapped : old.id < 2 ^ 32
    · have cut : toSize ((old.id : Int) - 2 ^ 32) = 2 ^ 64 - 2 ^ 32 + old.id := by
        rw [toSize]
        omega
      rw [if_pos wrapped, if_pos wrapped, cut]
      refine List.filter_eq_nil_iff.mpr fun row member => ?_
      have := (keyed.given row member).2
      simp only [decide_eq_true_eq]
      omega
    · have cut : toSize 0 = 0 := rfl
      rw [if_neg wrapped, if_neg wrapped, cut]
      exact List.filter_eq_self.mpr fun row member => decide_eq_true (keyed.given row member).1

/-- **What a writing leaves in the table**, in any state of any run, with a connection and answers to the
statements of the rotation: all records if they are not too many; else the newest ones, as long as the
key of the record behind them is below `2 ^ 31`; none, if it is below `2 ^ 32`; and all of them above
that. -/
theorem flush_by_id (config : Config) (s : Store Line)
    (reachable : (machine config).Reachable (fun _ _ => True) s) (db : Statements)
    (connected : db.isConnection = true) (answers : db.count ∧ db.first ∧ db.delete)
    (limited : config.maxdbRecords ≠ 0) (lines : s.qbuf ≠ [])
    (few : (insertAll db 0 s.qbuf s).rows.length < 2 ^ 31) :
    ((insertAll db 0 s.qbuf s).rows.length ≤ config.numOverflow →
      (flushBuffer config db s).rows = (insertAll db 0 s.qbuf s).rows) ∧
    (config.numOverflow < (insertAll db 0 s.qbuf s).rows.length →
      ∃ older old newer, (insertAll db 0 s.qbuf s).rows = older ++ old :: newer ∧
        newer.length = config.numOverflow ∧
        (flushBuffer config db s).rows
          = if old.id < 2 ^ 31 then newer
            else if old.id < 2 ^ 32 then [] else (insertAll db 0 s.qbuf s).rows) := by
  have flushed : flushBuffer config db s = rotateDB config db (insertAll db 0 s.qbuf s) :=
    if_neg (by simp [lines, connected])
  rw [flushed]
  exact rotateDB_rows ((keyed_of_reachable reachable).insertAll 0 s.qbuf) answers limited few

/-- The statements of a database that works. -/
def working : Statements := ⟨true, fun _ => true, true, true, true⟩

/-- A table with a key of `2 ^ 31`. -/
def sampleOld : Store String := ⟨[], [⟨2 ^ 31, "old"⟩], 2 ^ 31, ["old"]⟩

/-- One record is to stay. -/
def sampleSingle : Config := ⟨1, 1, 1⟩

/-- A line has come. -/
def sampleNew : Store String := step sampleSingle sampleOld (.addLog "new")

theorem all_deleted :
    ((insertAll working 0 sampleNew.qbuf sampleNew).rows.length ≤ 1 →
      (flushBuffer sampleSingle working sampleNew).rows
        = (insertAll working 0 sampleNew.qbuf sampleNew).rows) ∧
    (1 < (insertAll working 0 sampleNew.qbuf sampleNew).rows.length →
      ∃ older old newer, (insertAll working 0 sampleNew.qbuf sampleNew).rows = older ++ old :: newer ∧
        newer.length = 1 ∧
        (flushBuffer sampleSingle working sampleNew).rows
          = if old.id < 2 ^ 31 then newer
            else if old.id < 2 ^ 32 then [] else (insertAll working 0 sampleNew.qbuf sampleNew).rows) := by
  have start : (machine sampleSingle).start sampleOld :=
    ⟨rfl, ⟨List.pairwise_singleton _ _, by simp [sampleOld], by simp [sampleOld], by decide⟩, rfl⟩
  exact flush_by_id sampleSingle sampleNew ⟨sampleOld, [.addLog "new"], start, Lib.Machine.meets_true _, rfl⟩
    working rfl ⟨rfl, rfl, rfl⟩ (by decide) (by decide) (by decide)

example : (flushBuffer sampleSingle working sampleNew).rows = [] := by decide

end Rotation

variable {past : List (Event Line)} {start : Store Line}

/-! ### The newest lines -/

section Newest

variable {config : Config} {db : Statements} {s : Store Line}

theorem rtake_append {α : Type} (l m : List α) (n : Nat) :
    (l.rtake n ++ m).rtake n = (l ++ m).rtake n := by
  simp only [List.rtake_eq_reverse_take_reverse, List.reverse_append, List.reverse_reverse,
    List.take_append, List.take_take]
  congr 3
  omega

theorem rtake_of_length_le {α : Type} {l : List α} {n : Nat} (fits : l.length ≤ n) : l.rtake n = l := by
  rw [List.rtake, Nat.sub_eq_zero_of_le fits, List.drop_zero]

/-- The lines that are to stay in the table. -/
def kept (config : Config) (lines : List Line) : List Line :=
  if config.maxdbRecords = 0 then lines else lines.rtake config.numOverflow

/-- The lines that have come. -/
def added (events : List (Event Line)) : List Line :=
  events.filterMap fun
    | .addLog line => some line
    | _ => none

/-- Every statement does what it says, where there is a connection. -/
def Works : Event Line → Prop
  | .addLog _ => True
  | .onCheckBuffer db => (∀ k, db.insert k = true) ∧ db.count ∧ db.first ∧ db.delete
  | .onTerminate db => (∀ k, db.insert k = true) ∧ db.count ∧ db.first ∧ db.delete

theorem insertAll_works (works : ∀ k, db.insert k = true) (k : Nat) (lines : List Line)
    (room : s.seq + lines.length < 2 ^ 63) :
    (insertAll db k lines s).qbuf = [] ∧
      (insertAll db k lines s).seq = s.seq + lines.length ∧
      (insertAll db k lines s).written = s.written ++ lines ∧
      (insertAll db k lines s).rows.map Row.line = s.rows.map Row.line ++ lines := by
  induction lines generalizing k s with
  | nil => exact ⟨rfl, rfl, (List.append_nil _).symm, (List.append_nil _).symm⟩
  | cons line lines ih =>
    rw [List.length_cons] at room
    have stored : s.insert line
        = ⟨s.qbuf, s.rows ++ [⟨s.seq + 1, line⟩], s.seq + 1, s.written ++ [line]⟩ := if_pos (by omega)
    have seq_one : (s.insert line).seq = s.seq + 1 := by rw [stored]
    rw [insertAll, if_pos (works k)]
    obtain ⟨empty, seq, written, rows⟩ := ih (s := s.insert line) (k + 1) (by omega)
    rw [empty, seq, written, rows, seq_one, stored]
    refine ⟨rfl, ?_, by simp, by simp⟩
    rw [List.length_cons]
    omega

/-- What a run of a database that works keeps, from a table that is not too large. -/
structure Current (config : Config) (start : Store Line) (past : List (Event Line)) (s : Store Line) :
    Prop where
  keyed : Keyed s
  table : s.rows.map Row.line = kept config s.written
  lines : s.written ++ s.qbuf = start.written ++ added past
  count : s.seq + s.qbuf.length = start.seq + (added past).length

theorem kept_append (config : Config) (l m : List Line) :
    kept config (kept config l ++ m) = kept config (l ++ m) := by
  unfold kept
  split_ifs
  · rfl
  · exact rtake_append l m _

/-- **A rotation that works leaves the newest lines.** -/
theorem rotateDB_works (keyed : Keyed s) (answers : db.count ∧ db.first ∧ db.delete)
    (few : s.seq < 2 ^ 31) :
    (rotateDB config db s).rows.map Row.line = kept config (s.rows.map Row.line) := by
  unfold kept
  by_cases unlimited : config.maxdbRecords = 0
  · rw [if_pos unlimited, rotateDB, if_pos unlimited]
  · rw [if_neg unlimited]
    obtain ⟨fits, more⟩ := rotateDB_rows keyed answers unlimited (Nat.lt_of_le_of_lt keyed.few few)
    by_cases fit : s.rows.length ≤ config.numOverflow
    · rw [fits fit, rtake_of_length_le (by rwa [List.length_map])]
    · obtain ⟨older, old, newer, split, length, rows⟩ := more (Nat.lt_of_not_le fit)
      have small : old.id < 2 ^ 31 :=
        Nat.lt_of_le_of_lt (keyed.given old (by simp [split])).2 few
      have parts : (older ++ old :: newer).map Row.line
          = (older ++ [old]).map Row.line ++ newer.map Row.line := by simp
      have cut : ((older ++ [old]).map Row.line ++ newer.map Row.line).length - config.numOverflow
          = ((older ++ [old]).map Row.line).length := by
        simp only [List.length_append, List.length_map, List.length_singleton, length]
        omega
      rw [rows, if_pos small, split, parts, List.rtake, cut, List.drop_left]

theorem added_append (past events : List (Event Line)) :
    added (past ++ events) = added past ++ added events := List.filterMap_append

theorem Current.addLog (current : Current config start past s) (line : Line) :
    Current config start (past ++ [.addLog line]) (step config s (.addLog line)) := by
  have lines := current.lines
  have count := current.count
  have keyed := current.keyed
  have more : added (past ++ [.addLog line]) = added past ++ [line] := added_append past [.addLog line]
  refine ⟨⟨keyed.sorted, keyed.given, keyed.few, keyed.bound⟩, current.table, ?_, ?_⟩
  · show s.written ++ (s.qbuf ++ [line]) = _
    rw [more, ← List.append_assoc, lines, List.append_assoc]
  · show s.seq + (s.qbuf ++ [line]).length = _
    rw [more, List.length_append, List.length_append, ← Nat.add_assoc, count, Nat.add_assoc]

theorem Current.quiet {event : Event Line} (current : Current config start past s)
    (none : added [event] = []) :
    Current config start (past ++ [event]) s := by
  have same : added (past ++ [event]) = added past := by
    rw [added_append, none, List.append_nil]
  exact ⟨current.keyed, current.table, by rw [same, current.lines], by rw [same, current.count]⟩

theorem Current.flush (current : Current config start past s)
    (works : (∀ k, db.insert k = true) ∧ db.count ∧ db.first ∧ db.delete)
    (few : start.seq + (added past).length < 2 ^ 31) :
    Current config start past (flushBuffer config db s) := by
  have count := current.count
  unfold flushBuffer
  split_ifs with idle
  · exact current
  · obtain ⟨empty, seq, written, rows⟩ :=
      insertAll_works works.1 0 s.qbuf (by omega : s.seq + s.qbuf.length < 2 ^ 63)
    have keyed : Keyed (insertAll db 0 s.qbuf s) := current.keyed.insertAll 0 s.qbuf
    have same : (rotateDB config db (insertAll db 0 s.qbuf s)).qbuf = [] ∧
        (rotateDB config db (insertAll db 0 s.qbuf s)).seq = s.seq + s.qbuf.length ∧
        (rotateDB config db (insertAll db 0 s.qbuf s)).written = s.written ++ s.qbuf := by
      unfold rotateDB
      split_ifs <;> exact ⟨empty, seq, written⟩
    refine ⟨keyed.rotateDB, ?_, ?_, ?_⟩
    · rw [rotateDB_works keyed works.2 (by omega), rows, current.table, kept_append, same.2.2]
    · rw [same.1, same.2.2, List.append_nil, current.lines]
    · rw [same.1, same.2.1]
      exact count

/-- Two lines for a writing, and two records. -/
def sampleConfig : Config := ⟨2, 2, 2⟩

/-- Three lines and two checks of the buffer. -/
def sampleEvents : List (Event String) :=
  [.addLog "a", .addLog "b", .onCheckBuffer working, .addLog "c", .onTerminate working]

example : (sampleEvents.foldl (step sampleConfig) {}).rows.map Row.line = ["b", "c"] := by decide

end Newest

/-! ### Statements that fail -/

section Failures

variable {config : Config} {db : Statements} {s : Store Line}

/-- A writing puts lines of the buffer into the table, in their order, and empties the buffer. -/
theorem insertAll_sublist (k : Nat) (lines : List Line) :
    (insertAll db k lines s).written.Sublist (s.written ++ lines) ∧ (insertAll db k lines s).qbuf = [] := by
  induction lines generalizing k s with
  | nil => exact ⟨by rw [List.append_nil]; exact List.Sublist.refl _, rfl⟩
  | cons line lines ih =>
    obtain ⟨sub, empty⟩ := ih (s := if db.insert k then s.insert line else s) (k + 1)
    refine ⟨sub.trans ?_, empty⟩
    rw [← List.singleton_append, ← List.append_assoc]
    refine List.Sublist.append_right ?_ lines
    unfold Store.insert
    split_ifs
    · exact List.Sublist.refl _
    · exact List.sublist_append_left _ _
    · exact List.sublist_append_left _ _

/-- The lines of the table are among those written. -/
theorem insertAll_rows (k : Nat) (lines : List Line)
    (within : (s.rows.map Row.line).Sublist s.written) :
    ((insertAll db k lines s).rows.map Row.line).Sublist (insertAll db k lines s).written := by
  induction lines generalizing k s with
  | nil => exact within
  | cons line lines ih =>
    refine ih (k + 1) ?_
    unfold Store.insert
    split_ifs
    · rw [List.map_append]
      exact within.append (List.Sublist.refl _)
    · exact within
    · exact within

/-- What every run keeps, whatever fails. -/
structure Ordered (start : Store Line) (past : List (Event Line)) (s : Store Line) : Prop where
  table : (s.rows.map Row.line).Sublist s.written
  lines : (s.written ++ s.qbuf).Sublist (start.written ++ added past)

theorem Ordered.flush (ordered : Ordered start past s) :
    Ordered start past (flushBuffer config db s) := by
  unfold flushBuffer
  split_ifs
  · exact ordered
  · obtain ⟨written, empty⟩ : (insertAll db 0 s.qbuf s).written.Sublist (s.written ++ s.qbuf) ∧
        (insertAll db 0 s.qbuf s).qbuf = [] := insertAll_sublist 0 s.qbuf
    have table : ((insertAll db 0 s.qbuf s).rows.map Row.line).Sublist (insertAll db 0 s.qbuf s).written :=
      insertAll_rows 0 s.qbuf ordered.table
    have all : ((insertAll db 0 s.qbuf s).written ++ (insertAll db 0 s.qbuf s).qbuf).Sublist
        (start.written ++ added past) := by
      rw [empty, List.append_nil]
      exact written.trans ordered.lines
    unfold rotateDB
    split_ifs
    · exact ⟨table, all⟩
    · exact ⟨table, all⟩
    · exact ⟨(List.filter_sublist.map Row.line).trans table, all⟩
    · exact ⟨table, all⟩

theorem Ordered.quiet {event : Event Line} (ordered : Ordered start past s)
    (none : added [event] = []) :
    Ordered start (past ++ [event]) s :=
  ⟨ordered.table, by rw [added_append, none, List.append_nil]; exact ordered.lines⟩

end Failures

end UniSet.LogDB
