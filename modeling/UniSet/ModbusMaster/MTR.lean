/-
**The configuration files of the MTR devices.**

`read_confile` reads a file line by line in an endless loop; it leaves it where the stream is at its end, and the
line that was read then is not used. It takes the last character of the settings line for a carriage return, the
number that a text begins with for a register, and any four characters for a word.

* `Stream`, `getline` — the file as the loop reads it.
* `turn`, `readConfile` — one turn of the loop, and the loop.
* `taken` — the registers that it takes from the lines that end.
* `settings` — what a file says: behind the line `[Settings]`, the words of every line of a register above 40000 and
  hexadecimal digits. A line may end with a carriage return.
* `ReadAsSaid` — the file does not end with a line break, and the last line that is taken for a register says what
  the last line for it says.
* `Tidy` — a file of lines that end with a carriage return and are well formed.
* **`readConfile_iff`** — the loop ends with the settings of the file exactly if it is read as it says; a tidy file,
  exactly if its last line says nothing new.
-/

import Mathlib.Data.List.TakeWhile
import UniSet.Lib.Lines
import UniSet.Lib.Loop
import UniSet.Core.Split
import UniSet.VTypes

namespace UniSet.MTR

open UniSet.Core (Str digit number uniAtoi fromCharsUnsigned)
open Lib (feed feed_of_not_mem feed_break feed_lines first_break loop loop_some loop_keeps loop_exit_unique)

/-! ### The file -/

/-- **A file stream**: what is left of the file, and the states of the stream. -/
structure Stream where
  left : Str
  eof : Bool
  fail : Bool

/-- **`getline`**: the line, none if it fails, and the stream after it. -/
def getline (s : Stream) : Option Str × Stream :=
  if s.eof || s.fail then (none, { s with fail := true })
  else if s.left = [] then (none, ⟨[], true, true⟩)
  else (s.left.idxOf? '\n').elim (some s.left, ⟨[], true, false⟩)
    fun pos => (some (s.left.take pos), ⟨s.left.drop (pos + 1), false, false⟩)

/-! ### Its lines -/

/-- `str2mbData`. -/
def str2mbData (val : Str) : ModbusData := if val = [] then 0 else BitVec.ofInt 16 (uniAtoi val)

/-- **`read_param`**: what stands before the first equals sign and what behind it. -/
def readParam (str : Str) : Option (Str × Str) :=
  (str.idxOf? '=').map fun pos => (str.take pos, str.drop (pos + 1))

/-- One digit for the words: the digits of the begun word, and the words. -/
def putDigit (s : Str × List ModbusData) (c : Char) : Str × List ModbusData :=
  let v := s.1 ++ [c]
  if v.length > 3 then ([], s.2 ++ [str2mbData ("0x".toList ++ v)]) else (v, s.2)

/-- The words that the loop makes of the data. -/
def dataWords (sData : Str) : List ModbusData := (sData.foldl putDigit ([], [])).2

/-- A map of registers. -/
abbrev DataMap := ModbusData → Option (List ModbusData)

/-- A line behind the settings line: only registers above 40000 are written. -/
def putLine (dmap : DataMap) (str : Str) : DataMap :=
  (readParam str).elim dmap fun param =>
    let reg := str2mbData param.1
    if reg ≤ 40000 then dmap else Function.update dmap (reg - 40000) (some (dataWords param.2))

/-- The test for the settings line, with the last character removed. -/
def isStart (str : Str) : Bool := str.dropLast = "[Settings]".toList

/-- The variables of the loop. -/
structure Reading where
  ifs : Stream
  start : Bool
  dmap : DataMap

/-- A line that is used. -/
def useLine (s : Bool × DataMap) (str : Str) : Bool × DataMap :=
  if str = [] then s
  else if !s.1 then (if isStart str then true else false, s.2)
  else (true, putLine s.2 str)

/-- **One turn of the loop**, none if it is left. -/
def turn (s : Reading) : Option Reading :=
  let read := getline s.ifs
  read.1.elim (some { s with ifs := read.2 }) fun str =>
    if read.2.eof then none
    else
      let used := useLine (s.start, s.dmap) str
      some ⟨read.2, used.1, used.2⟩

/-- The loop before its first turn. -/
def opened (content : Str) : Reading := ⟨⟨content, false, false⟩, false, fun _ => none⟩

/-- **`read_confile`** with so many turns: the map, none if the loop is not left by then. -/
def readConfile (turns : Nat) (content : Str) : Option DataMap :=
  let s := loop turn turns (opened content)
  (turn s).elim (some s.dmap) fun _ => none

/-! ### What the loop takes -/

/-- The words that are made of data: one of every four characters. -/
def words : Str → List ModbusData
  | a :: b :: c :: d :: rest => str2mbData ("0x".toList ++ [a, b, c, d]) :: words rest
  | _ => []

/-- A register above 40000 and its words, if the line is taken for one. -/
def takenOf (line : Str) : Option (ModbusData × List ModbusData) :=
  (readParam line).bind fun param =>
    if str2mbData param.1 ≤ 40000 then none else some (str2mbData param.1 - 40000, words param.2)

/-- The lines behind the first one of a kind. -/
def behind (kind : Str → Bool) (lines : List Str) : List Str := (lines.dropWhile fun line => !kind line).drop 1

/-- The words of every register: the last entry for it decides. -/
def lastFor (entries : List (ModbusData × List ModbusData)) : DataMap := fun reg =>
  (entries.reverse.find? fun r => r.1 = reg).map Prod.snd

/-- The lines that end. -/
def complete (content : Str) : List Str := (feed '\n' ([], []) content).1

/-- The line that does not end. -/
def lastLine (content : Str) : Str := (feed '\n' ([], []) content).2

def takenFrom (lines : List Str) : List (ModbusData × List ModbusData) := (behind isStart lines).filterMap takenOf

/-- **The registers that are taken** from the lines that end. -/
def taken (content : Str) : List (ModbusData × List ModbusData) := takenFrom (complete content)

/-! ### What a file says -/

/-- A line without its carriage return. -/
def text (line : Str) : Str := if line.getLast? = some '\r' then line.dropLast else line

/-- The settings line. -/
def isSettings (line : Str) : Bool := text line = "[Settings]".toList

/-- All are digits to the base. -/
def Digits (base : Nat) (s : Str) : Prop := ∀ c ∈ s, (digit base c).isSome = true

instance (base : Nat) (s : Str) : Decidable (Digits base s) := List.decidableBAll _ s

/-- **The words of hexadecimal digits**, one for every four. -/
def hexWords : Str → List ModbusData
  | a :: b :: c :: d :: rest => BitVec.ofNat 16 (number 16 [a, b, c, d]) :: hexWords rest
  | _ => []

/-- **What a line says**: a register above 40000, and its words. -/
def lineSays (line : Str) : Option (ModbusData × List ModbusData) :=
  (readParam (text line)).bind fun param =>
    if param.1 ≠ [] ∧ Digits 10 param.1 ∧ 40000 < number 10 param.1 ∧ number 10 param.1 < 65536 ∧
      Digits 16 param.2 then some (BitVec.ofNat 16 (number 10 param.1 - 40000), hexWords param.2)
    else none

def saidBy (lines : List Str) : List (ModbusData × List ModbusData) := (behind isSettings lines).filterMap lineSays

/-- **What the lines of a file say**, the last one included. -/
def said (content : Str) : List (ModbusData × List ModbusData) := saidBy (Lib.lines '\n' content)

/-- **The settings of a file.** -/
def settings (content : Str) : DataMap := lastFor (said content)

/-- **The file is read as it says**: it does not end with a line break, and the last line that is taken for a
register says what the last line for it says. -/
def ReadAsSaid (content : Str) : Prop :=
  lastLine content ≠ [] ∧ ∀ reg, lastFor (taken content) reg = lastFor (said content) reg

/-- **A line that ends with a carriage return** and says a register, or has no equals sign. Three digits too many
would make a word with the carriage return. -/
def TidyLine (line : Str) : Prop :=
  ∃ text, line = text ++ ['\r'] ∧ ('=' ∉ text ∨ ∃ reg hex, text = reg ++ '=' :: hex ∧ reg ≠ [] ∧ Digits 10 reg ∧
    number 10 reg < 65536 ∧ Digits 16 hex ∧ hex.length % 4 ≠ 3)

/-- All lines that end are tidy. -/
def Tidy (content : Str) : Prop := ∀ line ∈ complete content, TidyLine line

/-- **The last line says nothing new**: it is not behind the settings line, says no register, or says what its
register has. -/
def LastSaysNothing (content : Str) : Prop :=
  lastLine content ≠ [] ∧ ((complete content).any isSettings →
    ∀ r ∈ lineSays (lastLine content), lastFor (saidBy (complete content)) r.1 = some r.2)

instance (content : Str) : Decidable (LastSaysNothing content) :=
  inferInstanceAs (Decidable (_ ∧ (_ → ∀ r ∈ lineSays (lastLine content), _)))

section Words

/-- **The counter of the loop makes the groups of four.** -/
theorem dataWords_eq (sData : Str) : dataWords sData = words sData := by
  have grouped : ∀ (ws : List ModbusData), (sData.foldl putDigit ([], ws)).2 = ws ++ words sData := by
    induction sData using words.induct with
    | case1 a b c d rest ih =>
      intro ws
      show (rest.foldl putDigit ([], ws ++ [str2mbData ("0x".toList ++ [a, b, c, d])])).2 = _
      rw [ih, words, List.append_assoc, List.singleton_append]
    | case2 short few =>
      intro ws
      rcases short with _ | ⟨a, _ | ⟨b, _ | ⟨c, _ | ⟨d, rest⟩⟩⟩⟩
      · exact (List.append_nil ws).symm
      · exact (List.append_nil ws).symm
      · exact (List.append_nil ws).symm
      · exact (List.append_nil ws).symm
      · exact absurd rfl (few a b c d rest)
  exact grouped []

end Words

section Lines

variable {dmap : DataMap} {lines : List Str} {line : Str} {reg : ModbusData}

theorem putLine_eq : putLine dmap line = (takenOf line).elim dmap fun r => Function.update dmap r.1 (some r.2) := by
  rw [putLine, takenOf]
  cases readParam line with
  | none => rfl
  | some param =>
    rw [Option.elim_some, Option.bind_some, dataWords_eq]
    by_cases low : str2mbData param.1 ≤ 40000
    · simp only [if_pos low, Option.elim_none]
    · simp only [if_neg low, Option.elim_some]

/-- **The last line for a register decides.** -/
theorem foldl_putLine :
    (lines.foldl putLine dmap) reg = (lastFor (lines.filterMap takenOf) reg).or (dmap reg) := by
  unfold lastFor
  induction lines generalizing dmap with
  | nil => rfl
  | cons line rest ih =>
    rw [List.foldl_cons, ih, putLine_eq, List.filterMap_cons]
    cases takenOf line with
    | none => rfl
    | some r =>
      rw [Option.elim_some, List.reverse_cons, List.find?_append]
      cases (List.find? (fun r => decide (r.1 = reg)) (List.filterMap takenOf rest).reverse) with
      | some found => rfl
      | none =>
        by_cases same : r.1 = reg
        · simp [same]
        · simp [same, Ne.symm same]

/-- An empty line is taken neither for the settings line nor for one of a register. -/
theorem useLine_eq (s : Bool × DataMap) :
    useLine s line = if s.1 then (true, putLine s.2 line) else (isStart line, s.2) := by
  obtain ⟨start, dmap⟩ := s
  rw [useLine]
  by_cases empty : line = []
  · subst empty
    cases start <;> rfl
  · rw [if_neg empty]
    cases start <;> simp

theorem foldl_useLine_started : lines.foldl useLine (true, dmap) = (true, lines.foldl putLine dmap) := by
  induction lines generalizing dmap with
  | nil => rfl
  | cons line rest ih =>
    rw [List.foldl_cons, useLine_eq, if_pos rfl, ih]
    rfl

/-- **The lines that are used** are those behind the line that is taken for the settings line. -/
theorem foldl_useLine :
    lines.foldl useLine (false, fun _ => none) = (lines.any isStart, lastFor (takenFrom lines)) := by
  induction lines with
  | nil => rfl
  | cons line rest ih =>
    rw [List.foldl_cons, useLine_eq, if_neg Bool.false_ne_true]
    cases start : isStart line with
    | false =>
      rw [ih, List.any_cons, start, Bool.false_or]
      have after : behind isStart (line :: rest) = behind isStart rest := by
        rw [behind, behind, List.dropWhile_cons_of_pos (by simp [start])]
      rw [takenFrom, takenFrom, after]
    | true =>
      rw [foldl_useLine_started, List.any_cons, start, Bool.true_or]
      refine congrArg _ ?_
      funext reg
      have after : behind isStart (line :: rest) = rest := by
        rw [behind, List.dropWhile_cons_of_neg (by simp [start]), List.drop_one, List.tail_cons]
      rw [foldl_putLine, Option.or_none, takenFrom, after]

end Lines

section Reading

variable {content : Str} {start : Bool} {dmap : DataMap}

/-- **A line that ends is used.** -/
theorem turn_of_break {pos : Nat} (found : content.idxOf? '\n' = some pos) :
    turn ⟨⟨content, false, false⟩, start, dmap⟩ = some ⟨⟨content.drop (pos + 1), false, false⟩,
      (useLine (start, dmap) (content.take pos)).1, (useLine (start, dmap) (content.take pos)).2⟩ := by
  have some' : content ≠ [] := by
    rintro rfl
    cases found
  have read : getline ⟨content, false, false⟩ = (some (content.take pos), ⟨content.drop (pos + 1), false, false⟩) := by
    simp [getline, some', found]
  rw [turn, read]
  rfl

/-- **A line that does not end is not used**: the loop is left. -/
theorem turn_of_last (some' : content ≠ []) (last : '\n' ∉ content) :
    turn ⟨⟨content, false, false⟩, start, dmap⟩ = none := by
  have read : getline ⟨content, false, false⟩ = (some content, ⟨[], true, false⟩) := by
    simp [getline, some', List.idxOf?_eq_none_iff.mpr last]
  rw [turn, read]
  rfl

/-- The lines of a text after its first line break. -/
theorem complete_of_break {pos : Nat} (found : content.idxOf? '\n' = some pos) :
    complete content = content.take pos :: complete (content.drop (pos + 1)) ∧
      lastLine content = lastLine (content.drop (pos + 1)) := by
  obtain ⟨-, before, split⟩ := first_break found
  have fed : feed '\n' ([], []) content = (content.take pos :: complete (content.drop (pos + 1)),
      lastLine (content.drop (pos + 1))) := by
    conv_lhs => rw [split]
    rw [feed_break before, feed_lines]
    rfl
  rw [complete, lastLine, fed]
  exact ⟨rfl, rfl⟩

theorem lastLine_of_not_mem (unbroken : '\n' ∉ content) : complete content = [] ∧ lastLine content = content := by
  rw [complete, lastLine, feed_of_not_mem unbroken]
  exact ⟨rfl, rfl⟩

/-- **A file that does not end with a line break is read to its last line**, which is not used. -/
theorem loop_ends : ∀ (n : Nat) (content : Str) (start : Bool) (dmap : DataMap), content.length ≤ n →
    lastLine content ≠ [] → ∃ turns s, loop turn turns ⟨⟨content, false, false⟩, start, dmap⟩ = s ∧ turn s = none ∧
      s.dmap = ((complete content).foldl useLine (start, dmap)).2
  | n, content, start, dmap, enough, ended => by
    cases found : content.idxOf? '\n' with
    | none =>
      have last := List.idxOf?_eq_none_iff.mp found
      obtain ⟨lines, rest⟩ := lastLine_of_not_mem last
      rw [rest] at ended
      refine ⟨0, _, rfl, turn_of_last ended last, ?_⟩
      rw [lines]
      rfl
    | some pos =>
      obtain ⟨inside, -, -⟩ := first_break found
      obtain ⟨lines, rest⟩ := complete_of_break found
      rw [rest] at ended
      cases n with
      | zero => omega
      | succ n =>
        have shorter : (content.drop (pos + 1)).length ≤ n := by
          rw [List.length_drop]
          omega
        obtain ⟨turns, s, looped, left, result⟩ := loop_ends n (content.drop (pos + 1))
          (useLine (start, dmap) (content.take pos)).1 (useLine (start, dmap) (content.take pos)).2 shorter ended
        refine ⟨turns + 1, s, ?_, left, ?_⟩
        · rw [loop_some (turn_of_break found)]
          exact looped
        · rw [lines, List.foldl_cons]
          exact result

/-- The stream of a file that ends with a line break, or is empty, is never at an end that `getline` reaches with a
line. -/
def Ends (s : Stream) : Prop := s.fail = true ∨ (s.eof = false ∧ lastLine s.left = [])

/-- **For such a file the loop goes on for ever.** -/
theorem turn_of_ends {s : Reading} (ends : Ends s.ifs) : ∃ t, turn s = some t ∧ Ends t.ifs := by
  obtain ⟨⟨content, eof, fail⟩, start, dmap⟩ := s
  rcases ends with failed | ⟨more, ended⟩
  · have read : getline ⟨content, eof, fail⟩ = (none, ⟨content, eof, true⟩) := by
      simp_all [getline]
    refine ⟨⟨⟨content, eof, true⟩, start, dmap⟩, ?_, .inl rfl⟩
    rw [turn, read]
    rfl
  · simp only at more ended
    subst more
    cases fail with
    | true =>
      refine ⟨⟨⟨content, false, true⟩, start, dmap⟩, ?_, .inl rfl⟩
      rw [turn]
      rfl
    | false =>
      cases found : content.idxOf? '\n' with
      | none =>
        have last := List.idxOf?_eq_none_iff.mp found
        rw [(lastLine_of_not_mem last).2] at ended
        subst ended
        exact ⟨⟨⟨[], true, true⟩, start, dmap⟩, rfl, .inl rfl⟩
      | some pos =>
        rw [(complete_of_break found).2] at ended
        exact ⟨_, turn_of_break found, .inr ⟨rfl, ended⟩⟩

end Reading

section Main

variable {content : Str}

/-- **A file that ends with a line break is never read to its end.** -/
theorem readConfile_endless (ended : lastLine content = []) (turns : Nat) : readConfile turns content = none := by
  have goesOn : Ends (loop turn turns (opened content)).ifs := by
    refine loop_keeps (P := fun s : Reading => Ends s.ifs) (fun s t ends turned => ?_) turns (.inr ⟨rfl, ended⟩)
    obtain ⟨u, again, kept⟩ := turn_of_ends ends
    rw [turned] at again
    exact Option.some.inj again ▸ kept
  obtain ⟨t, again, -⟩ := turn_of_ends goesOn
  rw [readConfile, again]
  rfl

/-- **Of any other file the lines that end are read.** -/
theorem readConfile_eq_iff (some' : lastLine content ≠ []) {dmap : DataMap} :
    (∃ turns, readConfile turns content = some dmap) ↔ lastFor (taken content) = dmap := by
  obtain ⟨turns, s, looped, left, result⟩ := loop_ends _ content false (fun _ => none) (Nat.le_refl _) some'
  rw [foldl_useLine] at result
  subst looped
  constructor
  · rintro ⟨turns', read⟩
    rw [readConfile] at read
    cases left' : turn (loop turn turns' (opened content)) with
    | some t =>
      rw [left'] at read
      cases read
    | none =>
      rw [left', Option.elim_none, loop_exit_unique left' left] at read
      exact result.symm.trans (Option.some.inj read)
  · intro same
    refine ⟨turns, ?_⟩
    rw [readConfile]
    simp only [opened, left, Option.elim_none, result]
    exact congrArg some same

/-- The loop ends with the settings of the file exactly if the file is read as it says. -/
theorem settings_iff (content : Str) :
    (∃ turns, readConfile turns content = some (settings content)) ↔ ReadAsSaid content := by
  by_cases ended : lastLine content = []
  · refine iff_of_false ?_ fun same => same.1 ended
    rintro ⟨turns, read⟩
    rw [readConfile_endless ended turns] at read
    cases read
  · rw [readConfile_eq_iff ended, ReadAsSaid, and_iff_right ended, settings, funext_iff]

end Main

/-! ### Tidy files -/

section Tidy

variable {content : Str} {lines : List Str} {line : Str}

theorem readParam_eq {reg data : Str} (none' : '=' ∉ reg) : readParam (reg ++ '=' :: data) = some (reg, data) := by
  have place : (reg ++ '=' :: data).idxOf? '=' = some reg.length := by
    induction reg with
    | nil => rfl
    | cons c reg ih =>
      rw [List.mem_cons, not_or] at none'
      rw [List.cons_append, List.idxOf?_cons, if_neg fun same => none'.1 (eq_of_beq same).symm,
        ih none'.2]
      rfl
  rw [readParam, place, Option.map_some, List.take_left, List.drop_append, List.drop_of_length_le (Nat.le_succ _)]
  simp

theorem number_eq {base : Nat} {s : Str} (digits : Digits base s) :
    number base s = (s.map fun c => (digit base c).getD 0).foldl (fun n d => n * base + d) 0 := by
  refine Core.number_of_digits fun c member => ?_
  obtain ⟨d, found⟩ := Option.isSome_iff_exists.mp (digits c member)
  rw [found, Option.getD_some]

theorem toInt_fromCharsUnsigned {base : Nat} {s : Str} (fits : number base s < 65536) :
    Core.toInt (fromCharsUnsigned base s) = number base s := by
  have inside : fromCharsUnsigned base s = number base s := if_pos (by omega)
  rw [inside, Core.toInt, Int.bmod_def]
  omega

theorem uniAtoi_of_digits {s : Str} (digits : Digits 10 s) : uniAtoi s = Core.toInt (fromCharsUnsigned 10 s) := by
  unfold uniAtoi
  split
  · exact absurd (digits '-' List.mem_cons_self) (by decide)
  · exact absurd (digits '-' List.mem_cons_self) (by decide)
  · exact absurd (digits 'x' (by simp)) (by decide)
  · rfl

/-- **A number that fits is taken as it is.** -/
theorem str2mbData_decimal {reg : Str} (some' : reg ≠ []) (digits : Digits 10 reg) (fits : number 10 reg < 65536) :
    str2mbData reg = BitVec.ofNat 16 (number 10 reg) := by
  rw [str2mbData, if_neg some', uniAtoi_of_digits digits, toInt_fromCharsUnsigned fits]
  exact BitVec.ofInt_natCast 16 _

theorem uniAtoi_of_hex (c : Char) (rest : Str) :
    uniAtoi ('0' :: 'x' :: c :: rest) = Core.toInt (fromCharsUnsigned 16 (c :: rest)) := by
  unfold uniAtoi
  split
  · next same => exact absurd (List.cons.inj same).1 (by decide)
  · next same => exact absurd (List.cons.inj same).1 (by decide)
  · next same =>
    cases same
    rfl
  · next other => exact absurd rfl (other c rest)

/-- **Four digits are taken for their word.** -/
theorem str2mbData_hex {a b c d : Char} (digits : Digits 16 [a, b, c, d]) :
    str2mbData ("0x".toList ++ [a, b, c, d]) = BitVec.ofNat 16 (number 16 [a, b, c, d]) := by
  have small : number 16 [a, b, c, d] < 65536 := by
    have each : ∀ c : Char, (digit 16 c).getD 0 < 16 := by
      intro c
      cases found : digit 16 c with
      | none => exact Nat.zero_lt_succ 15
      | some v =>
        have kept := (Option.filter_eq_some_iff.mp found).2
        exact of_decide_eq_true kept
    have first := each a
    have second := each b
    have third := each c
    have fourth := each d
    rw [number_eq digits]
    simp only [List.map_cons, List.map_nil, List.foldl_cons, List.foldl_nil]
    omega
  have unsigned : uniAtoi ("0x".toList ++ [a, b, c, d]) = Core.toInt (fromCharsUnsigned 16 [a, b, c, d]) :=
    uniAtoi_of_hex a [b, c, d]
  have some' : "0x".toList ++ [a, b, c, d] ≠ [] := List.append_ne_nil_of_right_ne_nil _ (List.cons_ne_nil _ _)
  rw [str2mbData, if_neg some', unsigned, toInt_fromCharsUnsigned small]
  exact BitVec.ofInt_natCast 16 _

theorem words_eq {hex : Str} (digits : Digits 16 hex) (groups : hex.length % 4 ≠ 3) :
    words (hex ++ ['\r']) = hexWords hex := by
  induction hex using hexWords.induct with
  | case1 a b c d rest ih =>
    have four : Digits 16 [a, b, c, d] := fun c member => digits c (List.mem_append_left rest member)
    have others : Digits 16 rest := fun c member => digits c (by simp [member])
    have length : rest.length % 4 ≠ 3 := by
      rw [show (a :: b :: c :: d :: rest).length = rest.length + 4 from rfl, Nat.add_mod_right] at groups
      exact groups
    rw [List.cons_append, List.cons_append, List.cons_append, List.cons_append, words, hexWords, ih others length,
      str2mbData_hex four]
  | case2 short few =>
    rcases short with _ | ⟨a, _ | ⟨b, _ | ⟨c, _ | ⟨d, rest⟩⟩⟩⟩
    · rfl
    · rfl
    · rfl
    · exact absurd rfl groups
    · exact absurd rfl (few a b c d rest)

theorem text_eq (line : Str) : text (line ++ ['\r']) = line := by
  rw [text, List.getLast?_concat, if_pos rfl, List.dropLast_concat]

/-- **A tidy line is taken for what it says.** -/
theorem TidyLine.takenOf_eq (tidy : TidyLine line) : takenOf line = lineSays line := by
  obtain ⟨line, rfl, none' | ⟨reg, hex, rfl, some', digits, fits, hexDigits, groups⟩⟩ := tidy
  · have unread : ∀ str : Str, '=' ∉ str → readParam str = none := fun str absent => by
      rw [readParam, List.idxOf?_eq_none_iff.mpr absent, Option.map_none]
    rw [takenOf, lineSays, text_eq, unread line none', unread _ (by simp [none'])]
    rfl
  · have absent : '=' ∉ reg := fun member => absurd (digits '=' member) (by decide)
    rw [takenOf, lineSays, text_eq, List.append_assoc, List.cons_append, readParam_eq absent, readParam_eq absent,
      Option.bind_some, Option.bind_some, str2mbData_decimal some' digits fits, words_eq hexDigits groups]
    have bounds : BitVec.ofNat 16 (number 10 reg) ≤ 40000 ↔ number 10 reg ≤ 40000 := by
      rw [BitVec.le_def, BitVec.toNat_ofNat, Nat.mod_eq_of_lt fits]
      rfl
    by_cases high : 40000 < number 10 reg
    · have less : BitVec.ofNat 16 (number 10 reg) - 40000 = BitVec.ofNat 16 (number 10 reg - 40000) := by
        apply BitVec.eq_of_toNat_eq
        rw [BitVec.toNat_sub_of_le
          (BitVec.le_def.mpr (by rw [BitVec.toNat_ofNat, Nat.mod_eq_of_lt fits]; exact high.le)),
          BitVec.toNat_ofNat, BitVec.toNat_ofNat, Nat.mod_eq_of_lt fits, Nat.mod_eq_of_lt (by omega)]
        rfl
      rw [if_neg (fun low => absurd (bounds.mp low) (Nat.not_le.mpr high)),
        if_pos ⟨some', digits, high, fits, hexDigits⟩, less]
    · rw [if_pos (bounds.mpr (Nat.not_lt.mp high)), if_neg fun all => high all.2.2.1]

theorem TidyLine.isStart_eq (tidy : TidyLine line) : isStart line = isSettings line := by
  obtain ⟨line, rfl, -⟩ := tidy
  rw [isStart, isSettings, text_eq, List.dropLast_concat]

theorem takenFrom_eq (tidy : ∀ line ∈ lines, TidyLine line) : takenFrom lines = saidBy lines := by
  induction lines with
  | nil => rfl
  | cons line rest ih =>
    obtain ⟨first, others⟩ := List.forall_mem_cons.mp tidy
    unfold takenFrom saidBy behind at ih ⊢
    rw [List.dropWhile_cons, List.dropWhile_cons, first.isStart_eq]
    split_ifs
    · exact ih others
    · exact List.filterMap_congr fun line member => (others line member).takenOf_eq

theorem isEmpty_dropWhile :
    (lines.dropWhile fun line => !isSettings line).isEmpty = !lines.any isSettings := by
  induction lines with
  | nil => rfl
  | cons line rest ih =>
    rw [List.dropWhile_cons, List.any_cons]
    cases isSettings line with
    | false => exact ih
    | true => rfl

theorem saidBy_of_not (none' : lines.any isSettings = false) : saidBy lines = [] := by
  have empty : (lines.dropWhile fun line => !isSettings line) = [] := by
    rw [← List.isEmpty_iff, isEmpty_dropWhile, none']
    rfl
  rw [saidBy, behind, empty]
  rfl

theorem saidBy_concat : saidBy (lines ++ [line]) =
    if lines.any isSettings then saidBy lines ++ (lineSays line).toList else [] := by
  unfold saidBy behind
  rw [List.dropWhile_append, isEmpty_dropWhile]
  cases started : lines.any isSettings with
  | false =>
    have last : ([line].dropWhile fun line => !isSettings line).drop 1 = [] :=
      List.drop_of_length_le (List.dropWhile_sublist _).length_le
    simp only [Bool.not_false, if_true, last, Bool.false_eq_true, if_false]
    rfl
  | true =>
    have some' : 1 ≤ (lines.dropWhile fun line => !isSettings line).length := by
      refine List.length_pos_iff.mpr fun empty => ?_
      rw [← List.isEmpty_iff, isEmpty_dropWhile, started] at empty
      cases empty
    have last : [line].filterMap lineSays = (lineSays line).toList := by
      rw [List.filterMap_cons]
      cases lineSays line <;> rfl
    simp only [Bool.not_true, Bool.false_eq_true, if_false, if_true, List.drop_append_of_le_length some',
      List.filterMap_append, last]

theorem lastFor_concat (entries : List (ModbusData × List ModbusData)) (r : ModbusData × List ModbusData) :
    lastFor (entries ++ [r]) = Function.update (lastFor entries) r.1 (some r.2) := by
  funext reg
  rw [lastFor, List.reverse_concat, List.find?_cons]
  by_cases same : r.1 = reg
  · simp [same]
  · simp [same, Ne.symm same, lastFor]

/-- **A tidy file is read exactly if its last line says nothing new.** -/
theorem tidy_iff (tidy : Tidy content) : ReadAsSaid content ↔ LastSaysNothing content := by
  rw [ReadAsSaid, LastSaysNothing]
  refine and_congr_right fun some' => ?_
  have all : said content = saidBy (complete content ++ [lastLine content]) := by
    rw [said, Lib.lines]
    exact congrArg saidBy (congrArg (complete content ++ ·) (if_neg some'))
  rw [taken, takenFrom_eq tidy, all, saidBy_concat, ← funext_iff]
  cases started : (complete content).any isSettings with
  | false =>
    rw [saidBy_of_not started]
    exact iff_of_true rfl fun yes => absurd yes Bool.false_ne_true
  | true =>
    rw [if_pos rfl]
    cases lineSays (lastLine content) with
    | none =>
      rw [Option.toList_none, List.append_nil]
      exact iff_of_true rfl fun _ r member => absurd member (Option.not_mem_none r)
    | some r =>
      rw [Option.toList_some, lastFor_concat, eq_comm, Function.update_eq_self_iff]
      refine ⟨fun nothing _ other member => ?_, fun same => (same rfl r rfl).symm⟩
      cases member
      exact nothing.symm

end Tidy

/-- **The configuration files that are read.** The loop ends with the settings of the file exactly if the file ends
without a line break, and for every register the last of the lines that end and are taken for it says what the last
line for it says; where all lines that end are tidy, exactly if the last line says nothing new. -/
theorem readConfile_iff (content : Str) :
    ((∃ turns, readConfile turns content = some (settings content)) ↔ ReadAsSaid content) ∧
      (Tidy content → (ReadAsSaid content ↔ LastSaysNothing content)) := ⟨settings_iff content, tidy_iff⟩

/-- A file whose last line is a comment. -/
example : LastSaysNothing "[Settings]\r\n40001=00FF0100\r\n;".toList := by decide +kernel

/-- **The usual files.** One that ends with a line break is never read to its end, and of one that does not the last
register is not read. Without carriage returns the settings line is not found. -/
theorem readConfile_usual :
    (¬ ∃ turns, readConfile turns "[Settings]\r\n40001=00FF\r\n".toList =
        some (settings "[Settings]\r\n40001=00FF\r\n".toList)) ∧
      (¬ ∃ turns, readConfile turns "[Settings]\r\n40001=00FF".toList =
        some (settings "[Settings]\r\n40001=00FF".toList)) ∧
      ¬ ∃ turns, readConfile turns "[Settings]\n40001=00FF\n;".toList =
        some (settings "[Settings]\n40001=00FF\n;".toList) := by
  have unread (content : Str) (some' : lastLine content ≠ []) (none' : lastFor (taken content) 1 = none)
      (gives : settings content 1 = some [255]) : ¬ ∃ turns, readConfile turns content = some (settings content) := by
    rw [readConfile_eq_iff some']
    intro same
    rw [same, gives] at none'
    cases none'
  refine ⟨?_, unread _ (by decide +kernel) (by decide +kernel) (by decide +kernel),
    unread _ (by decide +kernel) (by decide +kernel) (by decide +kernel)⟩
  rintro ⟨turns, read⟩
  rw [readConfile_endless (by decide +kernel)] at read
  cases read

end UniSet.MTR
