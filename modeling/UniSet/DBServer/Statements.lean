/-
**The statements of the database servers.**

The servers write their messages as `INSERT` statements that are put together of text and fields. Only LogDB
escapes its text, and doubles double quotes as well.

* `Formats` — how numbers, dates and times are written: without quotes.
* `DBServer_SQLite.sensorInfo`, `DBServer_SQLite.onTextMessage`, `DBServer_PostgreSQL.onTextMessage`,
  `LogDB.addLog` — the statements.
* **`sensorInfo_unread`** — a sensor message of SQLite is no statement at all.
* **`statements_iff`** — the other statements have the fields of their messages exactly for texts without the
  quotes that end or change them.
-/

import UniSet.Lib.SqlText
import UniSet.Lib.Templates

namespace UniSet.Statements

open Lib.Sql Lib.Template

/-- A text. -/
abbrev Text := List Char

/-- **How the fields are written.** -/
structure Formats where
  dateToString : Int → Text
  timeToString : Int → Text
  /-- A number. -/
  number : Int → Text
  /-- `(float)value / pow(10.0, precision)`. -/
  real : Int → Int → Text
  date_plain : ∀ sec, quote ∉ dateToString sec
  time_plain : ∀ sec, quote ∉ timeToString sec
  number_word : ∀ n, IsWord (number n)
  number_some : ∀ n, number n ≠ []
  real_plain : ∀ value precision, quote ∉ real value precision

/-- The fields of a sensor message that are written. -/
structure SensorMessage where
  sec : Int
  nsec : Int
  id : Int
  value : Int
  precision : Int
  node : Int

/-- The fields of a text message that are written. -/
structure TextMessage where
  sec : Int
  nsec : Int
  txt : Text
  mtype : Int
  node : Int

variable (f : Formats)

/-! ### The statements -/

/-- What stands between two values. -/
def next : Text := "','".toList

/-- What stands behind the last value. -/
def close : Text := "')".toList

/-- The begin of the statement for a sensor message. -/
def historyHead : Text :=
  "INSERT INTO main_history".toList ++ "(date, time, time_usec, sensor_id, value, node) VALUES( '".toList

/-- The begin of the statement for a text message. -/
def messagesHead : Text :=
  "INSERT INTO main_messages".toList ++ "(date, time, time_usec, text, mtype, node) VALUES( '".toList

/-- The begin of the statement for a log line. -/
def logsHead : Text := "INSERT INTO logs(tms,usec,name,text) VALUES(".toList ++ "datetime(".toList

/-- What stands behind the time of a log line. -/
def epoch : Text := ",'unixepoch'),'".toList

/-- **`DBServer_SQLite::sensorInfo`**: the number of the sensor has no quote before it. -/
def DBServer_SQLite.sensorInfo (si : SensorMessage) : Text :=
  historyHead ++ f.dateToString si.sec ++ next ++ f.timeToString si.sec ++ next ++ f.number si.nsec ++ "',".toList ++
    f.number si.id ++ next ++ f.real si.value si.precision ++ next ++ f.number si.node ++ close

/-- `DBServer_MySQL::sensorInfo`. -/
def DBServer_MySQL.sensorInfo (si : SensorMessage) : Text :=
  historyHead ++ f.dateToString si.sec ++ next ++ f.timeToString si.sec ++ next ++ f.number si.nsec ++ next ++
    f.number si.id ++ next ++ f.real si.value si.precision ++ next ++ f.number si.node ++ close

/-- The statement that both `onTextMessage` make. -/
def textMessage (msg : TextMessage) : Text :=
  messagesHead ++ f.dateToString msg.sec ++ next ++ f.timeToString msg.sec ++ next ++ f.number msg.nsec ++ next ++
    msg.txt ++ next ++ f.number msg.mtype ++ next ++ f.number msg.node ++ close

/-- **`DBServer_SQLite::onTextMessage`.** -/
def DBServer_SQLite.onTextMessage (msg : TextMessage) : Text := textMessage f msg

/-- **`DBServer_PostgreSQL::onTextMessage`.** -/
def DBServer_PostgreSQL.onTextMessage (msg : TextMessage) : Text := textMessage f msg

/-- `qEscapeString`: both kinds of quotes are doubled. -/
def qEscapeString (txt : Text) : Text := txt.flatMap fun c => if c = quote || c = '"' then [c, c] else [c]

/-- **`LogDB::addLog`.** -/
def LogDB.addLog (sec nsec : Int) (name txt : Text) : Text :=
  logsHead ++ f.number sec ++ epoch ++ f.number nsec ++ next ++ name ++ next ++ qEscapeString txt ++ "');".toList

/-! ### What they are to say -/

/-- The row of a sensor message. -/
def sensorRow (si : SensorMessage) : InsertStmt where
  table := "main_history".toList
  columns := ["date".toList, "time".toList, "time_usec".toList, "sensor_id".toList, "value".toList, "node".toList]
  values := [f.dateToString si.sec, f.timeToString si.sec, f.number si.nsec, f.number si.id,
    f.real si.value si.precision, f.number si.node].map fun s => [.literal s]

/-- The row of a text message. -/
def textRow (msg : TextMessage) : InsertStmt where
  table := "main_messages".toList
  columns := ["date".toList, "time".toList, "time_usec".toList, "text".toList, "mtype".toList, "node".toList]
  values := [f.dateToString msg.sec, f.timeToString msg.sec, f.number msg.nsec, msg.txt, f.number msg.mtype,
    f.number msg.node].map fun s => [.literal s]

/-- The time of a log line: the value of `datetime`. -/
def logTime (sec : Int) : List Token :=
  [.word "datetime".toList, .punct '(', .word (f.number sec), .punct ',', .literal "unixepoch".toList, .punct ')']

/-- The row of a log line. -/
def logRow (sec nsec : Int) (name txt : Text) : InsertStmt where
  table := "logs".toList
  columns := ["tms".toList, "usec".toList, "name".toList, "text".toList]
  values := [logTime f sec, [.literal (f.number nsec)], [.literal name], [.literal txt]]

section Proofs

variable {f}

theorem number_plain (n : Int) : quote ∉ f.number n := fun member => (f.number_word n _ member).1 rfl

theorem next_eq : next = [quote, ',', quote] := by decide

theorem close_eq : close = [quote, ')'] := by decide

theorem run_messagesHead (msg : TextMessage) :
    run ⟨[], .out []⟩ messagesHead = ⟨(textRow f msg).head, .inside []⟩ := by
  have head : run ⟨[], .out []⟩ messagesHead = ⟨(InsertStmt.mk "main_messages".toList ["date".toList, "time".toList,
    "time_usec".toList, "text".toList, "mtype".toList, "node".toList] []).head, .inside []⟩ := by decide +kernel
  exact head

theorem textMessage_eq (msg : TextMessage) : textMessage f msg = rowText messagesHead
    [f.dateToString msg.sec, f.timeToString msg.sec, f.number msg.nsec] msg.txt [f.number msg.mtype]
    (f.number msg.node) := by
  simp only [textMessage, rowText, fieldText, List.flatMap_cons, List.flatMap_nil, next_eq, close_eq,
    List.append_assoc, List.cons_append, List.nil_append, List.append_nil]

/-- **A text message** is read back exactly if its text has no single quote. -/
theorem textMessage_iff (msg : TextMessage) : Reads (textMessage f msg) (textRow f msg) ↔ quote ∉ msg.txt := by
  have tokens : (textRow f msg).tokens = rowTokens (textRow f msg).head
      [f.dateToString msg.sec, f.timeToString msg.sec, f.number msg.nsec] msg.txt [f.number msg.mtype]
      (f.number msg.node) := tokens_of_literals rfl
  have plainBefore : ∀ s ∈ [f.dateToString msg.sec, f.timeToString msg.sec, f.number msg.nsec], quote ∉ s := by
    simp [f.date_plain, f.time_plain, number_plain]
  have plainAfter : ∀ s ∈ [f.number msg.mtype], quote ∉ s := by
    simp [number_plain]
  rw [Reads, textMessage_eq, tokens]
  exact (and_iff_right rfl).trans (row_iff (run_messagesHead msg) plainBefore plainAfter (number_plain _))

/-- **A sensor message of SQLite is no statement**: one of its quotes has no other. -/
theorem sensorInfo_unread (si : SensorMessage) (row : InsertStmt) : ¬ Reads (DBServer_SQLite.sensorInfo f si) row := by
  have quotes : (DBServer_SQLite.sensorInfo f si).count quote % 2 = 1 := by
    simp only [DBServer_SQLite.sensorInfo, List.count_append, List.count_eq_zero_of_not_mem (f.date_plain _),
      List.count_eq_zero_of_not_mem (f.time_plain _), List.count_eq_zero_of_not_mem (number_plain _),
      List.count_eq_zero_of_not_mem (f.real_plain _ _)]
    decide +kernel
  rintro ⟨-, read | read⟩
  · rw [odd_quotes quotes] at read
    cases read
  · rw [odd_quotes quotes] at read
    cases read

/-! ### Log lines -/

/-- A text with its double quotes doubled. -/
def doubled (txt : Text) : Text := txt.flatMap fun c => if c = '"' then [c, c] else [c]

/-- **A log text is escaped as SQL has it**, with its double quotes doubled before. -/
theorem qEscapeString_eq (txt : Text) : qEscapeString txt = escape (doubled txt) := by
  induction txt with
  | nil => rfl
  | cons c txt ih =>
    have symbol : (if c = quote || c = '"' then [c, c] else [c]) = escape (if c = '"' then [c, c] else [c]) := by
      by_cases single : c = quote
      · rw [single]
        rfl
      · by_cases double : c = '"'
        · subst double
          rfl
        · simp [escape, single, double]
    rw [qEscapeString, doubled, List.flatMap_cons, List.flatMap_cons, escape, List.flatMap_append, symbol]
    exact congrArg (_ ++ ·) ih

theorem length_doubled (txt : Text) : (doubled txt).length = txt.length + txt.count '"' := by
  induction txt with
  | nil => rfl
  | cons c txt ih =>
    rw [doubled, List.flatMap_cons, List.length_append, List.length_cons, List.count_cons]
    show _ + (doubled txt).length = _
    rw [ih]
    by_cases double : c = '"'
    · simp [double]
      omega
    · simp [double]
      omega

/-- Nothing is doubled exactly in a text without double quotes. -/
theorem doubled_eq_iff {txt : Text} : doubled txt = txt ↔ '"' ∉ txt := by
  constructor
  · intro same
    have lengths := length_doubled txt
    rw [same] at lengths
    exact List.count_eq_zero.mp (by omega)
  · intro plain
    induction txt with
    | nil => rfl
    | cons c txt ih =>
      rw [List.mem_cons, not_or] at plain
      rw [doubled, List.flatMap_cons, if_neg (Ne.symm plain.1), List.singleton_append]
      exact congrArg (c :: ·) (ih plain.2)

/-- The tokens of a log line before its name. -/
def logBefore (f : Formats) (sec nsec : Int) : List Token :=
  (logRow f sec nsec [] []).head ++ (logTime f sec ++ [.punct ',', .literal (f.number nsec), .punct ','])

theorem run_logBefore (sec nsec : Int) :
    run ⟨[], .out []⟩ (logsHead ++ f.number sec ++ epoch ++ f.number nsec ++ next) =
      ⟨logBefore f sec nsec, .inside []⟩ := by
  have head : run ⟨[], .out []⟩ logsHead = ⟨(InsertStmt.mk "logs".toList ["tms".toList, "usec".toList, "name".toList,
    "text".toList] []).head ++ [.word "datetime".toList, .punct '('], .out []⟩ := by decide +kernel
  have time (done : List Token) : run ⟨done, .out (f.number sec)⟩ epoch =
      ⟨flush done (f.number sec) ++ [.punct ','] ++ [.literal "unixepoch".toList] ++ [.punct ')'] ++ [.punct ','],
        .inside []⟩ := rfl
  have split : logsHead ++ f.number sec ++ epoch ++ f.number nsec ++ next =
      logsHead ++ f.number sec ++ epoch ++ (f.number nsec ++ [quote, ',', quote]) := by
    rw [next_eq, List.append_assoc (logsHead ++ f.number sec ++ epoch)]
  rw [split, run_append, run_append (a := logsHead ++ f.number sec), run_append (a := logsHead), head,
    run_word (f.number_word sec), List.nil_append, time, run_field (number_plain nsec), flush,
    if_neg (f.number_some sec)]
  simp [logBefore, logTime, logRow, InsertStmt.head]

theorem tokens_logRow (sec nsec : Int) (name txt : Text) : (logRow f sec nsec name txt).tokens =
    logBefore f sec nsec ++ .literal name :: [.punct ',', .literal txt, .punct ')'] := by
  simp [InsertStmt.tokens, logBefore, logRow, InsertStmt.head, List.intercalate]

/-- **A log line** is read back exactly if its name has no single quote and its text has no double quote. -/
theorem addLog_iff (sec nsec : Int) (name txt : Text) :
    Reads (LogDB.addLog f sec nsec name txt) (logRow f sec nsec name txt) ↔ quote ∉ name ∧ '"' ∉ txt := by
  have reached : lex (LogDB.addLog f sec nsec name txt) = finish (run ⟨logBefore f sec nsec, .inside []⟩
      (name ++ quote :: ',' :: quote :: (qEscapeString txt ++ [quote, ')', ';']))) := by
    have text : LogDB.addLog f sec nsec name txt = (logsHead ++ f.number sec ++ epoch ++ f.number nsec ++ next) ++
        (name ++ quote :: ',' :: quote :: (qEscapeString txt ++ [quote, ')', ';'])) := by
      have closed : "');".toList = [quote, ')', ';'] := by decide
      simp [LogDB.addLog, closed, next_eq]
    rw [lex, text, run_append, run_logBefore]
  have lexed (plain : quote ∉ name) : lex (LogDB.addLog f sec nsec name txt) =
      some (logBefore f sec nsec ++ .literal name :: [.punct ',', .literal (doubled txt), .punct ')'] ++
        [.punct ';']) := by
    have split : name ++ quote :: ',' :: quote :: (qEscapeString txt ++ [quote, ')', ';']) =
        (name ++ [quote, ',', quote]) ++ (qEscapeString txt ++ [quote, ')', ';']) := by simp
    rw [reached, split, run_append, run_field plain, run_append, qEscapeString_eq, run_escape,
      List.nil_append]
    show some (logBefore f sec nsec ++ [.literal name, .punct ','] ++ [.literal (doubled txt)] ++ [.punct ')'] ++
      [.punct ';']) = _
    simp
  rw [Reads, tokens_logRow]
  constructor
  · rintro ⟨-, read⟩
    have plain : quote ∉ name := by
      rw [reached] at read
      obtain read | read := read
      · exact no_quote_of_reads (by decide : ',' ≠ quote) read
      · rw [List.append_assoc, List.cons_append] at read
        exact no_quote_of_reads (by decide : ',' ≠ quote) read
    rw [lexed plain] at read
    refine ⟨plain, doubled_eq_iff.mp ?_⟩
    simpa using read
  · rintro ⟨plain, same⟩
    rw [lexed plain, doubled_eq_iff.mpr same]
    exact ⟨rfl, .inr rfl⟩

end Proofs

/-- **Which statements have the fields of their messages**: those of text messages exactly for texts without single
quotes, those of log lines exactly for names without single quotes and texts without double quotes, and those that
SQLite makes for sensor messages never. -/
theorem statements_iff (f : Formats) :
    (∀ si : SensorMessage, ¬ Reads (DBServer_SQLite.sensorInfo f si) (sensorRow f si)) ∧
    (∀ msg : TextMessage, Reads (DBServer_SQLite.onTextMessage f msg) (textRow f msg) ↔ quote ∉ msg.txt) ∧
    (∀ msg : TextMessage, Reads (DBServer_PostgreSQL.onTextMessage f msg) (textRow f msg) ↔ quote ∉ msg.txt) ∧
    ∀ (sec nsec : Int) (name txt : Text),
      Reads (LogDB.addLog f sec nsec name txt) (logRow f sec nsec name txt) ↔ quote ∉ name ∧ '"' ∉ txt :=
  ⟨fun si => sensorInfo_unread si _, textMessage_iff, textMessage_iff, addLog_iff⟩

/-! ### Messages with quotes -/

theorem decimal_word (n : Int) : IsWord (decimal n) := by
  intro c member
  obtain rfl | digit := mem_decimal member
  · decide
  · have other {d : Char} (none : d.isDigit = false) : c ≠ d := fun same => by
      rw [same, none] at digit
      cases digit
    refine ⟨other (by decide), ?_, ?_⟩
    · simp [isBlank, other (d := ' ') (by decide), other (d := '\n') (by decide), other (d := '\t') (by decide),
        other (d := '\r') (by decide)]
    · simp [isPunct, other (d := '(') (by decide), other (d := ')') (by decide), other (d := ',') (by decide),
        other (d := ';') (by decide)]

/-- Numbers in digits, on one day at midnight. -/
def midnight : Formats where
  dateToString _ := "2020-01-01".toList
  timeToString _ := "00:00:00".toList
  number := decimal
  real value _ := decimal value
  date_plain _ := by decide
  time_plain _ := by decide
  number_word := decimal_word
  number_some := decimal_ne_nil
  real_plain value _ member := (decimal_word value _ member).1 rfl

/-- **A sensor message, a text with a single quote and a log line with a double quote** are not what the statements
say: SQLite has one quote too few, the single quote ends the text, the double quote is doubled. -/
theorem quotes_not_kept :
    ¬ Reads (DBServer_SQLite.sensorInfo midnight ⟨0, 0, 1, 5, 0, 3⟩) (sensorRow midnight ⟨0, 0, 1, 5, 0, 3⟩) ∧
    ¬ Reads (DBServer_SQLite.onTextMessage midnight ⟨0, 0, [quote], 1, 3⟩) (textRow midnight ⟨0, 0, [quote], 1, 3⟩) ∧
    ¬ Reads (DBServer_PostgreSQL.onTextMessage midnight ⟨0, 0, [quote], 1, 3⟩)
      (textRow midnight ⟨0, 0, [quote], 1, 3⟩) ∧
    ¬ Reads (LogDB.addLog midnight 0 0 "log1".toList ['"']) (logRow midnight 0 0 "log1".toList ['"']) ∧
    lex (LogDB.addLog midnight 0 0 "log1".toList ['"']) =
      some ((logRow midnight 0 0 "log1".toList ['"', '"']).tokens ++ [.punct ';']) := by
  decide +kernel

end UniSet.Statements
