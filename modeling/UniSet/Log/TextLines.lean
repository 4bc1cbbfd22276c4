/-
**Log texts and their lines.**

LogDB cuts what a log sends into lines for its database; a LogReader with a text filter cuts it into lines for the
filter. Both keep the begun line between the pieces, and both go on after a line break from the second next symbol.

* `onLogEvent`, `logRun` — the cutting for the database, and the rest that `run` emits at the end.
* `read` — the texts that the reader gives to the filter.
* `AtEnds` — the only line break of a piece is its last symbol. **`logRun_lines_iff`**: exactly for such pieces the
  database gets the lines of the text.
* `LastBreaks` — a line break inside a message is the last one of all. **`read_lines_iff`**: exactly for such
  messages the reader passes the complete lines that any filter asks for.
* **`lines_iff`** — both of them.
-/

import UniSet.Lib.Lines

namespace UniSet.LogText

open Lib (feed size feed_append feed_of_not_mem feed_break feed_lines feed_size feed_count feed_begun first_break)

/-- A text. -/
abbrev Text := List Char

/-! ### The cutting for the database -/

/-- The loop of `onLogEvent` over the further line breaks: the lines it emits and the text it leaves. The end is
compared with the line and not with the text. -/
def furtherLines (text : Text) : List Text × Text :=
  (text.idxOf? '\n').elim ([], text) fun pos =>
    if pos + 2 ≥ (text.take pos).length then ([text.take pos], [])
    else
      let later := furtherLines (text.drop (pos + 2))
      (text.take pos :: later.1, later.2)
termination_by text.length
decreasing_by
  rename_i longer
  rw [List.length_take] at longer
  omega

/-- **`LogDB::Log::onLogEvent`**: the lines it emits and the text it leaves. -/
def onLogEvent (text s : Text) : List Text × Text :=
  (s.idxOf? '\n').elim ([], text ++ s) fun pos =>
    let line := text ++ s.take pos
    if pos + 2 ≥ s.length then ([line], [])
    else
      let later := furtherLines (s.drop (pos + 2))
      (line :: later.1, later.2)

/-- The pieces of a text, one after the other. -/
def logEvents (text : Text) : List Text → List Text × Text
  | [] => ([], text)
  | s :: rest =>
    let emitted := onLogEvent text s
    let later := logEvents emitted.2 rest
    (emitted.1 ++ later.1, later.2)

/-- **`LogDB::Log::run`**: what it emits for the pieces of a text, the rest included. -/
def logRun (pieces : List Text) : List Text :=
  let read := logEvents [] pieces
  read.1 ++ if read.2 = [] then [] else [read.2]

/-- **The lines of a text**, one that does not end included. -/
def textLines (text : Text) : List Text := Lib.lines '\n' text

/-- No line break but for the last symbol. -/
def AtEnds (pieces : List Text) : Prop := ∀ s ∈ pieces, '\n' ∉ s.dropLast

instance (pieces : List Text) : Decidable (AtEnds pieces) := inferInstanceAs (Decidable (∀ s ∈ pieces, _))

section Database

variable {text s : Text}

/-- **The loop ends with its first line**: no end is left of its place. -/
theorem furtherLines_eq : furtherLines text = (text.idxOf? '\n').elim ([], text) fun pos => ([text.take pos], []) := by
  rw [furtherLines]
  congr 1
  funext pos
  rw [if_pos]
  rw [List.length_take]
  omega

theorem onLogEvent_of_not_mem (unbroken : '\n' ∉ s) : onLogEvent text s = ([], text ++ s) := by
  rw [onLogEvent, List.idxOf?_eq_none_iff.mpr unbroken, Option.elim_none]

theorem onLogEvent_of_break {pos : Nat} (found : s.idxOf? '\n' = some pos) :
    onLogEvent text s = if pos + 2 ≥ s.length then ([text ++ s.take pos], [])
      else ((text ++ s.take pos) :: (furtherLines (s.drop (pos + 2))).1, (furtherLines (s.drop (pos + 2))).2) := by
  rw [onLogEvent, found, Option.elim_some]

/-- The line break is the last symbol exactly if there is nothing after it. -/
theorem not_mem_dropLast_iff {pos : Nat} (found : s.idxOf? '\n' = some pos) :
    '\n' ∉ s.dropLast ↔ pos + 1 = s.length := by
  obtain ⟨inside, before, split⟩ := first_break found
  constructor
  · intro atEnd
    by_contra further
    have there : s[pos]? = some '\n' := by
      conv_lhs => rw [split]
      rw [List.getElem?_append_right (by rw [List.length_take]; omega), List.length_take,
        Nat.min_eq_left (Nat.le_of_lt inside), Nat.sub_self, List.getElem?_cons_zero]
    refine atEnd (List.mem_iff_getElem?.mpr ⟨pos, ?_⟩)
    rw [List.getElem?_dropLast, if_pos (by omega), there]
  · intro atEnd
    rw [List.dropLast_eq_take, ← atEnd, Nat.add_sub_cancel]
    exact before

/-- **A piece whose break is at its end is cut as the text is.** -/
theorem onLogEvent_of_atEnd (atEnd : '\n' ∉ s.dropLast) : onLogEvent text s = feed '\n' ([], text) s := by
  cases found : s.idxOf? '\n' with
  | none =>
    have unbroken := List.idxOf?_eq_none_iff.mp found
    rw [onLogEvent_of_not_mem unbroken, feed_of_not_mem unbroken]
  | some pos =>
    have last := (not_mem_dropLast_iff found).mp atEnd
    obtain ⟨-, before, split⟩ := first_break found
    rw [onLogEvent_of_break found, if_pos (by omega)]
    conv_rhs => rw [split]
    rw [feed_break before, List.drop_of_length_le (by omega)]
    rfl

/-- The loop emits and leaves no more than its text. -/
theorem furtherLines_size (text : Text) : size (furtherLines text).1 + (furtherLines text).2.length ≤ text.length := by
  rw [furtherLines_eq]
  cases found : text.idxOf? '\n' with
  | none => simp [size]
  | some pos =>
    obtain ⟨inside, -, -⟩ := first_break found
    simp only [Option.elim_some, Lib.size_singleton, List.length_take, List.length_nil]
    omega

/-- **What a piece adds to the lines and the text**: never more than its symbols, and all of them only if its break
is at its end. -/
theorem onLogEvent_size (text s : Text) :
    size (onLogEvent text s).1 + (onLogEvent text s).2.length ≤ text.length + s.length ∧
    ('\n' ∈ s.dropLast →
      size (onLogEvent text s).1 + (onLogEvent text s).2.length < text.length + s.length) := by
  cases found : s.idxOf? '\n' with
  | none =>
    have unbroken := List.idxOf?_eq_none_iff.mp found
    rw [onLogEvent_of_not_mem unbroken]
    refine ⟨by simp [size], fun member => absurd (List.dropLast_subset s member) unbroken⟩
  | some pos =>
    obtain ⟨inside, -, -⟩ := first_break found
    have atEnd := not_mem_dropLast_iff found
    rw [onLogEvent_of_break found]
    by_cases near : pos + 2 ≥ s.length
    · rw [if_pos near]
      simp only [Lib.size_singleton, List.length_append, List.length_take, List.length_nil]
      refine ⟨by omega, fun member => ?_⟩
      have further : ¬ pos + 1 = s.length := fun last => atEnd.mpr last member
      omega
    · rw [if_neg near]
      have later := furtherLines_size (s.drop (pos + 2))
      rw [List.length_drop] at later
      have first : size ((text ++ s.take pos) :: (furtherLines (s.drop (pos + 2))).1) =
          text.length + pos + 1 + size (furtherLines (s.drop (pos + 2))).1 := by
        simp only [size, List.map_cons, List.sum_cons, List.length_append, List.length_take]
        omega
      simp only [first]
      exact ⟨by omega, fun _ => by omega⟩

/-- **A piece that ends with a line break leaves no text.** -/
theorem onLogEvent_begun (some' : s ≠ []) (ends : s.getLast some' = '\n') : (onLogEvent text s).2 = [] := by
  cases found : s.idxOf? '\n' with
  | none => exact absurd (ends ▸ List.getLast_mem some') (List.idxOf?_eq_none_iff.mp found)
  | some pos =>
    rw [onLogEvent_of_break found]
    by_cases near : pos + 2 ≥ s.length
    · rw [if_pos near]
    · rw [if_neg near, furtherLines_eq]
      have left : s.drop (pos + 2) ≠ [] := List.ne_nil_of_length_pos (by rw [List.length_drop]; omega)
      have break' : '\n' ∈ s.drop (pos + 2) := by
        rw [← ends, ← List.getLast_drop left]
        exact List.getLast_mem left
      obtain ⟨further, again⟩ := Option.ne_none_iff_exists'.mp
        (fun none' => List.idxOf?_eq_none_iff.mp none' break' : (s.drop (pos + 2)).idxOf? '\n' ≠ none)
      rw [again, Option.elim_some]

variable {pieces : List Text}

/-- **Pieces with their breaks at the end are cut as the text is.** -/
theorem logEvents_of_atEnds (atEnds : AtEnds pieces) :
    logEvents text pieces = feed '\n' ([], text) pieces.flatten := by
  induction pieces generalizing text with
  | nil => rfl
  | cons s rest ih =>
    obtain ⟨here, later⟩ := List.forall_mem_cons.mp atEnds
    rw [logEvents, onLogEvent_of_atEnd here, List.flatten_cons, feed_append, ih later]
    exact (feed_lines _ _).symm

/-- **The symbols of the run**: some are lost unless the breaks are at the ends. -/
theorem logEvents_size (text : Text) (pieces : List Text) :
    size (logEvents text pieces).1 + (logEvents text pieces).2.length ≤
      text.length + pieces.flatten.length ∧
    (¬ AtEnds pieces → size (logEvents text pieces).1 + (logEvents text pieces).2.length <
      text.length + pieces.flatten.length) := by
  induction pieces generalizing text with
  | nil =>
    exact ⟨by simp [logEvents, size], fun broken => absurd (fun s member => absurd member List.not_mem_nil) broken⟩
  | cons s rest ih =>
    obtain ⟨most, less⟩ := onLogEvent_size text s
    obtain ⟨restMost, restLess⟩ := ih (onLogEvent text s).2
    simp only [logEvents, Lib.size_append, List.flatten_cons, List.length_append]
    refine ⟨by omega, fun broken => ?_⟩
    by_cases here : '\n' ∈ s.dropLast
    · have := less here
      omega
    · have := restLess fun later => broken (List.forall_mem_cons.mpr ⟨here, later⟩)
      omega

/-- **A text whose lines all end leaves nothing.** -/
theorem logEvents_begun (pieces : List Text) {text begun : Text} (both : begun = [] → text = [])
    (ended : (feed '\n' ([], begun) pieces.flatten).2 = []) : (logEvents text pieces).2 = [] := by
  induction pieces generalizing text begun with
  | nil => exact both ended
  | cons s rest ih =>
    rw [List.flatten_cons, feed_append, feed_lines] at ended
    refine ih (fun none' => ?_) ended
    by_cases some' : s = []
    · subst some'
      rw [onLogEvent_of_not_mem List.not_mem_nil, List.append_nil]
      exact both none'
    · exact onLogEvent_begun some' ((feed_begun some').mp none')

/-- The symbols of what is emitted at the end. -/
theorem size_rest {lines : List Text} {rest : Text} : size (lines ++ if rest = [] then [] else [rest]) =
    size lines + rest.length + if rest = [] then 0 else 1 := by
  rw [Lib.size_append]
  split
  · simp_all [size]
  · simp [Nat.add_assoc]

/-- **The lines for the database** are those of the text exactly if no piece has a line break before its end. -/
theorem logRun_lines_iff (pieces : List Text) : logRun pieces = textLines pieces.flatten ↔ AtEnds pieces := by
  refine ⟨fun same => ?_, fun atEnds => by rw [logRun, logEvents_of_atEnds atEnds, textLines, Lib.lines]⟩
  by_contra broken
  have fewer := (logEvents_size [] pieces).2 broken
  have all : size (feed '\n' ([], []) pieces.flatten).1 + (feed '\n' ([], []) pieces.flatten).2.length =
      size ([] : List Text) + ([] : Text).length + pieces.flatten.length := feed_size
  have begun := logEvents_begun pieces fun _ : ([] : Text) = [] => (rfl : ([] : Text) = [])
  have sizes := congrArg size same
  rw [logRun, textLines, Lib.lines, size_rest, size_rest] at sizes
  simp only [size, List.map_nil, List.sum_nil, List.length_nil] at all fewer sizes
  split at sizes
  · split at sizes <;> omega
  · rename_i left
    rw [if_neg fun ended => left (begun ended)] at sizes
    omega

end Database

/-! ### The cutting for the filter -/

/-- A message for the reader: the text it gives to the filter, if any, and the line it has begun then. -/
def readMessage (line text : Text) : Option Text × Text :=
  (text.idxOf? '\n').elim (none, line ++ text) fun pos =>
    (some (line ++ text.take (pos + 1)), if pos + 2 < text.length then text.drop (pos + 2) else [])

/-- The texts that the reader gives to the filter. -/
def filtered (line : Text) : List Text → List Text
  | [] => []
  | text :: rest => (readMessage line text).1.toList ++ filtered (readMessage line text).2 rest

/-- **`LogReader::read` with a text filter**: what it passes on of the messages it reads. -/
def read (rule : Text → Bool) (messages : List Text) : List Text := (filtered [] messages).filter rule

/-- **The complete lines of a text**, with their line breaks. -/
def completeLines (text : Text) : List Text := (feed '\n' ([], []) text).1.map (· ++ ['\n'])

/-- **A line break inside a message is the last one of all**: no other follows, in the message or later. -/
def LastBreaks : List Text → Prop
  | [] => True
  | s :: rest => ('\n' ∈ s.dropLast → s.count '\n' = 1 ∧ ∀ later ∈ rest, '\n' ∉ later) ∧ LastBreaks rest

instance decidableLastBreaks : ∀ messages, Decidable (LastBreaks messages)
  | [] => inferInstanceAs (Decidable True)
  | s :: rest =>
    have := decidableLastBreaks rest
    inferInstanceAs (Decidable (('\n' ∈ s.dropLast → _) ∧ LastBreaks rest))

section Reader

variable {line s : Text} {messages : List Text}

theorem readMessage_of_not_mem (unbroken : '\n' ∉ s) : readMessage line s = (none, line ++ s) := by
  rw [readMessage, List.idxOf?_eq_none_iff.mpr unbroken, Option.elim_none]

theorem readMessage_of_break {pos : Nat} (found : s.idxOf? '\n' = some pos) :
    readMessage line s = (some (line ++ s.take (pos + 1)), (s.drop (pos + 1)).tail) := by
  rw [readMessage, found, Option.elim_some, List.tail_drop]
  split
  · rfl
  · rw [List.drop_of_length_le (by omega)]

theorem filtered_of_not_mem (unbroken : ∀ s ∈ messages, '\n' ∉ s) : filtered line messages = [] := by
  induction messages generalizing line with
  | nil => rfl
  | cons s rest ih =>
    obtain ⟨here, later⟩ := List.forall_mem_cons.mp unbroken
    rw [filtered, readMessage_of_not_mem here, ih later]
    rfl

/-- **A message gives at most one text to the filter**, if it has a line break. -/
theorem filtered_length : (filtered line messages).length ≤ messages.flatten.count '\n' := by
  induction messages generalizing line with
  | nil => exact Nat.zero_le _
  | cons s rest ih =>
    rw [filtered, List.length_append, List.flatten_cons, List.count_append]
    refine Nat.add_le_add ?_ ih
    cases found : s.idxOf? '\n' with
    | none =>
      rw [readMessage_of_not_mem (List.idxOf?_eq_none_iff.mp found)]
      exact Nat.zero_le _
    | some pos =>
      rw [readMessage_of_break found]
      refine List.count_pos_iff.mpr ?_
      rw [(first_break found).2.2]
      exact List.mem_append_right _ List.mem_cons_self

theorem completeLines_break {a b : Text} (unbroken : '\n' ∉ a) :
    (feed '\n' ([], line) (a ++ '\n' :: b)).1.map (· ++ ['\n']) = (line ++ a ++ ['\n']) :: completeLines b := by
  rw [feed_break unbroken, feed_lines]
  rfl

/-- **One symbol too few and a later line break**: the line with it is too short. -/
theorem filtered_short {begun : Text} (some' : begun ≠ []) (break' : '\n' ∈ messages.flatten) :
    filtered begun.tail messages ≠ (feed '\n' ([], begun) messages.flatten).1.map (· ++ ['\n']) := by
  induction messages generalizing begun with
  | nil => exact absurd break' List.not_mem_nil
  | cons s rest ih =>
    rw [filtered, List.flatten_cons]
    cases found : s.idxOf? '\n' with
    | none =>
      have unbroken := List.idxOf?_eq_none_iff.mp found
      have later : '\n' ∈ rest.flatten := (List.mem_append.mp break').resolve_left unbroken
      rw [readMessage_of_not_mem unbroken, feed_append, feed_of_not_mem unbroken, ← List.tail_append_of_ne_nil some']
      exact ih (List.append_ne_nil_of_left_ne_nil some' s) later
    | some pos =>
      obtain ⟨inside, before, split⟩ := first_break found
      rw [readMessage_of_break found]
      conv_rhs => rw [split]
      rw [List.append_assoc, List.cons_append, completeLines_break before]
      intro same
      have lengths := congrArg List.length (List.cons.inj same).1
      have more : 0 < begun.length := List.length_pos_iff.mpr some'
      simp only [List.length_append, List.length_tail, List.length_take, List.length_singleton] at lengths
      omega

theorem lastBreaks_of_not_mem (unbroken : ∀ s ∈ messages, '\n' ∉ s) : LastBreaks messages := by
  induction messages with
  | nil => trivial
  | cons s rest ih =>
    obtain ⟨here, later⟩ := List.forall_mem_cons.mp unbroken
    exact ⟨fun member => absurd (List.dropLast_subset s member) here, ih later⟩

/-- After a line break inside a message, the texts for the filter are the complete lines exactly if no line break
follows. -/
theorem filtered_tail_iff {begun : Text} (some' : begun ≠ []) :
    filtered begun.tail messages = completeLines (begun ++ messages.flatten) ↔
      '\n' ∉ begun ∧ ∀ s ∈ messages, '\n' ∉ s := by
  by_cases inside : '\n' ∈ begun
  · refine iff_of_false (fun same => ?_) fun none' => none'.1 inside
    have lengths := congrArg List.length same
    have fewer : (filtered begun.tail messages).length ≤ messages.flatten.count '\n' := filtered_length
    have one := List.count_pos_iff.mpr inside
    rw [completeLines, List.length_map, feed_count, List.length_nil, List.count_append] at lengths
    omega
  · rw [completeLines, feed_append, feed_of_not_mem inside, List.nil_append]
    by_cases later : '\n' ∈ messages.flatten
    · refine iff_of_false (filtered_short some' later) fun none' => ?_
      obtain ⟨s, member, break'⟩ := List.mem_flatten.mp later
      exact none'.2 s member break'
    · have unbroken : ∀ s ∈ messages, '\n' ∉ s := fun s member break' =>
        later (List.mem_flatten.mpr ⟨s, member, break'⟩)
      rw [filtered_of_not_mem unbroken, feed_of_not_mem later]
      exact iff_of_true rfl ⟨inside, unbroken⟩

/-- **The texts for the filter are the complete lines** exactly if a line break inside a message is the last one. -/
theorem filtered_iff : filtered line messages = (feed '\n' ([], line) messages.flatten).1.map (· ++ ['\n']) ↔
    LastBreaks messages := by
  induction messages generalizing line with
  | nil => exact iff_of_true rfl trivial
  | cons s rest ih =>
    rw [filtered, List.flatten_cons]
    cases found : s.idxOf? '\n' with
    | none =>
      have unbroken := List.idxOf?_eq_none_iff.mp found
      rw [readMessage_of_not_mem unbroken, feed_append, feed_of_not_mem unbroken]
      have inner : '\n' ∉ s.dropLast := fun member => unbroken (List.dropLast_subset s member)
      exact ih.trans (and_iff_right fun member => absurd member inner).symm
    | some pos =>
      obtain ⟨inside, before, split⟩ := first_break found
      have taken : s.take (pos + 1) = s.take pos ++ ['\n'] := by
        conv_lhs => rw [split]
        rw [List.take_append, List.length_take, Nat.min_eq_left (Nat.le_of_lt inside)]
        simp [List.take_take]
      have counted : s.count '\n' = 1 + (s.drop (pos + 1)).count '\n' := by
        conv_lhs => rw [split]
        rw [List.count_append, List.count_eq_zero_of_not_mem before, List.count_cons_self]
        omega
      have atEnd := not_mem_dropLast_iff found
      rw [readMessage_of_break found]
      have lines : (feed '\n' ([], line) (s ++ rest.flatten)).1.map (· ++ ['\n']) =
          (line ++ s.take (pos + 1)) :: completeLines (s.drop (pos + 1) ++ rest.flatten) := by
        conv_lhs => rw [split]
        rw [List.append_assoc, List.cons_append, completeLines_break before, taken, List.append_assoc]
      rw [lines, Option.toList_some, List.singleton_append, List.cons.injEq, and_iff_right rfl]
      by_cases ended : s.drop (pos + 1) = []
      · have last : pos + 1 = s.length := by
          have length := List.drop_eq_nil_iff.mp ended
          omega
        rw [ended]
        exact ih.trans (and_iff_right fun member => absurd member (atEnd.mpr last)).symm
      · have inner : '\n' ∈ s.dropLast := by
          by_contra none'
          exact ended (List.drop_of_length_le (Nat.le_of_eq (atEnd.mp none').symm))
        rw [filtered_tail_iff ended]
        constructor
        · rintro ⟨here, later⟩
          exact ⟨fun _ => ⟨by rw [counted, List.count_eq_zero_of_not_mem here], later⟩, lastBreaks_of_not_mem later⟩
        · rintro ⟨last, -⟩
          obtain ⟨one, later⟩ := last inner
          exact ⟨List.count_eq_zero.mp (by omega), later⟩

/-- **The lines for every filter** are the complete lines of the text that it asks for, exactly if a line break
inside a message is the last one. -/
theorem read_lines_iff (messages : List Text) :
    (∀ rule, read rule messages = (completeLines messages.flatten).filter rule) ↔ LastBreaks messages := by
  rw [← filtered_iff]
  refine ⟨fun all => ?_, fun same rule => by rw [read, same]; rfl⟩
  have every := all fun _ => true
  rwa [read, List.filter_true, List.filter_true] at every

end Reader

/-- **Lines do not depend on the cutting** exactly if, for the database, no piece has a line break before its end
and, for the reader, a line break inside a message is the last one of all. -/
theorem lines_iff (pieces messages : List Text) :
    (logRun pieces = textLines pieces.flatten ∧
        ∀ rule, read rule messages = (completeLines messages.flatten).filter rule) ↔
      AtEnds pieces ∧ LastBreaks messages :=
  and_congr (logRun_lines_iff pieces) (read_lines_iff messages)

/-- **Two lines in one text**: the database gets the second one without its first symbol and not the third one; the
reader passes on the second one with a symbol missing. -/
theorem lines_lost :
    logRun ["a\nbc\nd\n".toList] ≠ textLines ["a\nbc\nd\n".toList].flatten ∧
      read (fun _ => true) ["a\nbc".toList, "\n".toList] ≠
        (completeLines ["a\nbc".toList, "\n".toList].flatten).filter fun _ => true := by
  have emitted : onLogEvent [] "a\nbc\nd\n".toList = (["a".toList, "c".toList], []) := by
    rw [onLogEvent_of_break (by decide : "a\nbc\nd\n".toList.idxOf? '\n' = some 1), furtherLines_eq]
    decide
  refine ⟨?_, by decide⟩
  rw [logRun, logEvents, emitted]
  decide

end UniSet.LogText
