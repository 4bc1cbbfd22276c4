/-
**`split`, `split_sv` and the lists that are parsed with them.**

The scan of `split` moves on behind a separator only if the word before it is not empty, and at the
very start of the string. Two separators in a row therefore keep it at the second one for ever.

* `turn` — one turn of the loop; `split` and `splitSv` are the loop with a number of turns allowed, and
  `none` if it is not left by then.
* `runs` — the maximal non-empty runs without a separator; `Single` — no two separators in a row.
* `getSInfoList`, `getObjectsList` — the lists of sensors and of objects, with `uni_atoi`.
* **`split_returns_iff`** — `split` returns, and then the runs, exactly for the strings without two
  separators in a row; the lists are returned exactly if every split they make is of such a string.
-/

import UniSet.Lib.Loop
import Mathlib.Data.List.Infix
import Mathlib.Data.List.TakeWhile

namespace UniSet.Core

/-- A string; the code compares its characters and cuts it. -/
abbrev Str := List Char

/-! ### `split` -/

/-- The variables of the loop, and whether it was left. -/
structure Scan where
  prev : Nat
  v : List Str
  left : Bool
deriving DecidableEq, Repr

/-- `str.find(sep, prev)`; `none` is `npos`. -/
def find (str : Str) (sep : Char) (prev : Nat) : Option Nat :=
  ((str.drop prev).findIdx? (· = sep)).map (prev + ·)

/-- `str.substr(pos, n)`. -/
def substr (str : Str) (pos n : Nat) : Str := (str.drop pos).take n

/-- **One turn of the loop.** -/
def turn (str : Str) (sep : Char) (s : Scan) : Option Scan :=
  if s.left then none
  else if str.length ≤ s.prev then some { s with left := true }
  else match find str sep s.prev with
    | none =>
      let word := substr str s.prev (str.length - s.prev)
      some { s with v := if word ≠ [] then s.v ++ [word] else s.v, left := true }
    | some pos =>
      if pos = 0 then some { s with prev := 1 }
      else
        let word := substr str s.prev (pos - s.prev)
        if word ≠ [] then some { s with v := s.v ++ [word], prev := pos + 1 } else some s

/-- The loop with at most `fuel` turns. -/
def scan (fuel : Nat) (str : Str) (sep : Char) : Option (List Str) :=
  let s := Lib.loop (turn str sep) fuel ⟨0, [], false⟩
  if s.left then some s.v else none

/-- **`uniset3::split`.** -/
def split (fuel : Nat) (str : Str) (sep : Char) : Option (List Str) := scan fuel str sep

/-- **`uniset3::split_sv`**, the same loop over a view. -/
def splitSv (fuel : Nat) (str : Str) (sep : Char) : Option (List Str) := scan fuel str sep

/-- **The maximal non-empty runs** of characters that are not the separator, in order. -/
def runs (sep : Char) (str : Str) : List Str := (str.splitOn sep).filter (· ≠ [])

/-- **No two separators in a row.** -/
def Single (sep : Char) (str : Str) : Prop := ¬ [sep, sep] <:+: str

instance (sep : Char) (str : Str) : Decidable (Single sep str) :=
  inferInstanceAs (Decidable (¬ _))

/-! ### `uni_atoi` -/

/-- The value of a character as a digit to base `base`. -/
def digit (base : Nat) (c : Char) : Option Nat :=
  let value :=
    if '0' ≤ c ∧ c ≤ '9' then some (c.toNat - '0'.toNat)
    else if 'a' ≤ c ∧ c ≤ 'f' then some (c.toNat - 'a'.toNat + 10)
    else if 'A' ≤ c ∧ c ≤ 'F' then some (c.toNat - 'A'.toNat + 10)
    else none
  value.filter (· < base)

/-- The number that the digits at the start of a string write; 0 if there is none. -/
def number (base : Nat) (s : Str) : Nat :=
  (((s.map (digit base)).takeWhile Option.isSome).reduceOption).foldl (fun n d => n * base + d) 0

/-- A text of digits is read to its end. -/
theorem number_of_digits {base : Nat} {s : Str} {value : Char → Nat}
    (digits : ∀ c ∈ s, digit base c = some (value c)) :
    number base s = (s.map value).foldl (fun n d => n * base + d) 0 := by
  have values : s.map (digit base) = (s.map value).map some := by
    rw [List.map_map]
    exact List.map_congr_left digits
  have all : ((s.map value).map some).takeWhile Option.isSome = (s.map value).map some := by
    rw [List.takeWhile_eq_self_iff]
    simp
  have listed : ((s.map value).map some).reduceOption = s.map value := by
    show ((s.map value).map some).filterMap id = s.map value
    rw [List.filterMap_map, Function.id_comp, List.filterMap_some]
  rw [number, values, all, listed]

/-- `std::from_chars` into an `unsigned int` that is 0: out of range it stays 0. -/
def fromCharsUnsigned (base : Nat) (s : Str) : Nat :=
  let n := number base s
  if n < 0x100000000 then n else 0

/-- `std::from_chars` into an `int` that is 0. -/
def fromCharsInt (base : Nat) (s : Str) : Int :=
  match s with
  | '-' :: rest =>
    let n := number base rest
    if n ≤ 0x80000000 then -n else 0
  | _ =>
    let n := number base s
    if n < 0x80000000 then n else 0

/-- The conversion to `int`. -/
def toInt (n : Int) : Int := n.bmod 0x100000000

/-- **`uni_atoi`**, and `uni_atoi_sv` with the same body. -/
def uniAtoi (s : Str) : Int :=
  match s with
  | '-' :: '0' :: 'x' :: rest => toInt (-fromCharsInt 16 rest)
  | '-' :: _ :: _ => fromCharsInt 10 s
  | '0' :: 'x' :: c :: rest => toInt (fromCharsUnsigned 16 (c :: rest))
  | _ => toInt (fromCharsUnsigned 10 s)

example : uniAtoi "-0x1F".toList = -31 := by decide
example : uniAtoi "4294967295".toList = -1 := by decide

/-- `is_digit`. -/
def isDigit (s : Str) : Bool := s ≠ [] && s.all fun c => '0' ≤ c ∧ c ≤ '9'

/-! ### The lists of sensors and of objects -/

/-- `DefaultObjectId`. -/
def defaultObjectId : Int := -1

/-- The lookups of `Configuration`. -/
structure Configuration where
  getSensorID : Str → Int
  getNodeID : Str → Int
  getObjectID : Str → Int
  getControllerID : Str → Int
  getServiceID : Str → Int

/-- `SensorInfo`, `ConsumerInfo`: an id on a node. -/
structure Address where
  id : Int
  node : Int
deriving DecidableEq, Repr

structure ParamSInfo where
  si : Address
  val : Int
  fname : Str
deriving DecidableEq, Repr

/-- An id or a node of the list of sensors: a number, or a name if there is a configuration. -/
def sinfoId (conf : Option Configuration) (byName : Configuration → Str → Int) (s : Str) : Int :=
  match conf with
  | some conf => if isDigit s then uniAtoi s else byName conf s
  | none => uniAtoi s

/-- The part of an item before `=`: `id` or `id@node`. With `cut` for the splits; the outer `none` is
a split that does not return, the inner one an item that is ignored. -/
def sinfoAt (cut : Str → Char → Option (List Str)) (conf : Option Configuration) (s : Str)
    (val : Int) : Option (Option ParamSInfo) := do
  match ← cut s '@' with
  | [sId] =>
    return some ⟨⟨sinfoId conf Configuration.getSensorID sId, defaultObjectId⟩, val, s⟩
  | [sId, sNode] =>
    return some ⟨⟨sinfoId conf Configuration.getSensorID sId,
      sinfoId conf Configuration.getNodeID sNode⟩, val, s⟩
  | _ => return none

/-- One item of the list of sensors. -/
def sinfo (cut : Str → Char → Option (List Str)) (conf : Option Configuration) (it : Str) :
    Option (Option ParamSInfo) := do
  match ← cut it '=' with
  | [s] => sinfoAt cut conf s 0
  | [s, v] => sinfoAt cut conf s (uniAtoi v)
  | _ => return none

/-- **`getSInfoList`.** -/
def getSInfoList (fuel : Nat) (conf : Option Configuration) (str : Str) :
    Option (List ParamSInfo) := do
  let lst ← split fuel str ','
  let items ← lst.mapM (sinfo (split fuel) conf)
  return items.reduceOption

/-- **`getSInfoList_sv`.** -/
def getSInfoListSv (fuel : Nat) (conf : Option Configuration) (str : Str) :
    Option (List ParamSInfo) := do
  let lst ← splitSv fuel str ','
  let items ← lst.mapM (sinfo (splitSv fuel) conf)
  return items.reduceOption

/-- An id of the list of objects: an object, a controller or a service. -/
def objectId (conf : Configuration) (s : Str) : Int :=
  if isDigit s then uniAtoi s
  else
    let id := conf.getObjectID s
    let id := if id = defaultObjectId then conf.getControllerID s else id
    if id = defaultObjectId then conf.getServiceID s else id

/-- One item of the list of objects. -/
def objectInfo (cut : Str → Char → Option (List Str)) (conf : Configuration) (it : Str) :
    Option (Option Address) := do
  match ← cut it '@' with
  | [sId] => return some ⟨objectId conf sId, defaultObjectId⟩
  | [sId, sNode] =>
    return some ⟨objectId conf sId, if isDigit sNode then uniAtoi sNode else conf.getNodeID sNode⟩
  | _ => return none

/-- **`getObjectsList`**, with the configuration given or `uniset_conf()`. -/
def getObjectsList (fuel : Nat) (conf : Configuration) (str : Str) : Option (List Address) := do
  let lst ← split fuel str ','
  let items ← lst.mapM (objectInfo (split fuel) conf)
  return items.reduceOption

/-! ### What `split` returns -/

section Split

variable {str : Str} {sep : Char} {s t : Scan}

theorem runs_nil (sep : Char) : runs sep [] = [] := rfl

theorem runs_word {word : Str} (free : sep ∉ word) (more : word ≠ []) : runs sep word = [word] := by
  unfold runs
  rw [List.splitOn_eq_singleton free, List.filter_cons_of_pos (by simpa using more), List.filter_nil]

theorem runs_cons (sep : Char) (rest : Str) : runs sep (sep :: rest) = runs sep rest := by
  have parts : (([] : Str) ++ sep :: rest).splitOn sep = [] :: rest.splitOn sep :=
    List.splitOn_append_cons_self_of_not_mem List.not_mem_nil rest
  rw [List.nil_append] at parts
  unfold runs
  rw [parts, List.filter_cons_of_neg (by simp)]

theorem runs_word_cons {word : Str} (free : sep ∉ word) (more : word ≠ []) (rest : Str) :
    runs sep (word ++ sep :: rest) = word :: runs sep rest := by
  unfold runs
  rw [List.splitOn_append_cons_self_of_not_mem free, List.filter_cons_of_pos (by simpa using more)]

/-- **What `find` finds**: the word before the separator, and what is behind it. -/
theorem find_some {prev pos : Nat} (found : find str sep prev = some pos) :
    ∃ word, str.drop prev = word ++ sep :: str.drop (pos + 1) ∧ sep ∉ word ∧
      pos = prev + word.length := by
  obtain ⟨i, index, rfl⟩ := Option.map_eq_some_iff.mp found
  obtain ⟨inside, here, before⟩ := List.findIdx?_eq_some_iff_getElem.mp index
  refine ⟨(str.drop prev).take i, ?_, fun member => ?_, ?_⟩
  · have same : (str.drop prev)[i] = sep := of_decide_eq_true here
    have behind : str.drop (prev + i + 1) = (str.drop prev).drop (i + 1) := by
      rw [List.drop_drop, Nat.add_assoc]
    rw [behind, ← same, List.getElem_cons_drop, List.take_append_drop]
  · obtain ⟨j, hj, same⟩ := List.getElem_of_mem member
    rw [List.length_take] at hj
    rw [List.getElem_take] at same
    exact before j (by omega) (decide_eq_true same)
  · rw [List.length_take, Nat.min_eq_left (Nat.le_of_lt inside)]

theorem find_none {prev : Nat} (missing : find str sep prev = none) : sep ∉ str.drop prev := by
  intro member
  have none := List.findIdx?_eq_none_iff.mp (Option.map_eq_none_iff.mp missing) sep member
  rw [decide_eq_true rfl] at none
  cases none

/-- **What one turn can do**: end the scan, pass the separator at the start, take a word, or nothing. -/
inductive Turned (str : Str) (sep : Char) (s : Scan) : Scan → Prop
  | ended (rest : str.drop s.prev = []) : Turned str sep s { s with left := true }
  | last (more : str.drop s.prev ≠ []) (free : sep ∉ str.drop s.prev) :
    Turned str sep s { s with v := s.v ++ [str.drop s.prev], left := true }
  | start (first : s.prev = 0) (rest : str.drop 0 = sep :: str.drop 1) :
    Turned str sep s { s with prev := 1 }
  | word (w : Str) (more : w ≠ []) (free : sep ∉ w)
    (rest : str.drop s.prev = w ++ sep :: str.drop (s.prev + w.length + 1)) :
    Turned str sep s { s with v := s.v ++ [w], prev := s.prev + w.length + 1 }
  | stuck (behind : s.prev ≠ 0) (rest : str.drop s.prev = sep :: str.drop (s.prev + 1)) :
    Turned str sep s s

theorem turn_spec (turned : turn str sep s = some t) : s.left = false ∧ Turned str sep s t := by
  unfold turn at turned
  split at turned
  · cases turned
  · rename_i open_
    refine ⟨Bool.eq_false_iff.mpr open_, ?_⟩
    split at turned
    · rename_i few
      cases turned
      exact .ended (List.drop_eq_nil_iff.mpr few)
    · rename_i inside
      have more : str.drop s.prev ≠ [] := fun none => inside (List.drop_eq_nil_iff.mp none)
      split at turned
      · rename_i missing
        have whole : substr str s.prev (str.length - s.prev) = str.drop s.prev := by
          unfold substr
          rw [← List.length_drop, List.take_length]
        dsimp only at turned
        rw [whole, if_pos more] at turned
        cases turned
        exact .last more (find_none missing)
      · rename_i pos found
        obtain ⟨w, rest, free, at_⟩ := find_some found
        have cut : substr str s.prev (pos - s.prev) = w := by
          unfold substr
          rw [rest, at_, Nat.add_sub_cancel_left, List.take_left]
        dsimp only at turned
        rw [cut] at turned
        rw [at_] at rest
        split at turned
        · rename_i zero
          cases turned
          have first : s.prev = 0 := by omega
          have none : w = [] := List.length_eq_zero_iff.mp (by omega)
          rw [none, first] at rest
          exact .start first rest
        · rename_i positive
          split at turned
          · rename_i some
            cases turned
            rw [at_]
            exact .word w some free rest
          · rename_i none
            cases turned
            have none : w = [] := Decidable.not_not.mp none
            rw [none] at at_ rest
            exact .stuck (fun zero => positive (by rw [at_, zero]; rfl)) rest

/-- The scan is left as long as turns are taken. -/
theorem turn_none : turn str sep s = none ↔ s.left = true := by
  unfold turn
  cases left : s.left with
  | true => exact iff_of_true rfl rfl
  | false =>
    rw [if_neg Bool.false_ne_true]
    refine iff_of_false (fun none => ?_) Bool.false_ne_true
    split at none
    · cases none
    · split at none
      · cases none
      · split at none
        · cases none
        · dsimp only at none
          split at none <;> cases none

/-- **The invariant of the words**: those taken and those of the rest are the words of the string. -/
def Scanned (str : Str) (sep : Char) (s : Scan) : Prop :=
  s.v ++ (if s.left then [] else runs sep (str.drop s.prev)) = runs sep str

theorem Scanned.turn (scanned : Scanned str sep s) (turned : turn str sep s = some t) :
    Scanned str sep t := by
  obtain ⟨open_, turned⟩ := turn_spec turned
  unfold Scanned at scanned ⊢
  rw [open_, if_neg Bool.false_ne_true] at scanned
  rw [← scanned]
  cases turned with
  | ended rest => rw [rest, runs_nil, if_pos rfl]
  | last more free => rw [runs_word free more, if_pos rfl, List.append_nil]
  | start first rest =>
    dsimp only
    rw [open_, if_neg Bool.false_ne_true, first, rest, runs_cons]
  | word w more free rest =>
    dsimp only
    rw [open_, if_neg Bool.false_ne_true, rest, runs_word_cons free more, List.append_assoc]
    rfl
  | stuck behind rest => rw [open_, if_neg Bool.false_ne_true]

/-- **Two separators in a row**, ahead of the scan or the one it is at. -/
def Ahead (str : Str) (sep : Char) (s : Scan) : Prop :=
  s.left = false ∧ ∃ i, s.prev ≤ i + 1 ∧ ∃ rest, str.drop i = sep :: sep :: rest

theorem Ahead.turn (ahead : Ahead str sep s) (turned : turn str sep s = some t) : Ahead str sep t := by
  obtain ⟨-, turned⟩ := turn_spec turned
  obtain ⟨open_, i, reach, rest', pair⟩ := ahead
  have second : str.drop (i + 1) = sep :: rest' := by
    rw [← List.drop_drop, pair]
    rfl
  -- the second of the two is in what is not scanned yet
  have behind : sep ∈ str.drop s.prev := by
    have suffix : str.drop (i + 1) <:+ str.drop s.prev := by
      have split : i + 1 = s.prev + (i + 1 - s.prev) := by omega
      rw [split, ← List.drop_drop]
      exact List.drop_suffix _ _
    exact suffix.subset (second ▸ List.mem_cons_self)
  cases turned with
  | ended rest =>
    rw [rest] at behind
    cases behind
  | last more free => exact absurd behind free
  | start first rest => exact ⟨open_, i, Nat.succ_le_succ (Nat.zero_le i), rest', pair⟩
  | word w more free rest =>
    refine ⟨open_, i, ?_, rest', pair⟩
    show s.prev + w.length + 1 ≤ i + 1
    -- a word that reached the second separator would hold the first one, or be empty
    refine Nat.succ_le_succ (Nat.le_of_not_lt fun long => ?_)
    by_cases first : s.prev ≤ i
    · have at_ : (str.drop s.prev)[i - s.prev]? = some sep := by
        have here : (str.drop i)[0]? = some sep := by rw [pair]; rfl
        rw [List.getElem?_drop] at here ⊢
        rw [← here]
        congr 1
        omega
      rw [rest, List.getElem?_append_left (by omega)] at at_
      exact free (List.mem_of_getElem? at_)
    · have last : s.prev = i + 1 := by omega
      rw [last, second] at rest
      cases w with
      | nil => exact more rfl
      | cons c w' =>
        rw [List.cons_append, List.cons.injEq] at rest
        exact free (rest.1 ▸ List.mem_cons_self)
  | stuck behind' rest => exact ⟨open_, i, reach, rest', pair⟩

/-- **The place of the scan**: the start, or behind a separator. -/
def Placed (str : Str) (sep : Char) (s : Scan) : Prop :=
  s.left = false → s.prev = 0 ∨ ∃ i, s.prev = i + 1 ∧ str[i]? = some sep

theorem Placed.turn (placed : Placed str sep s) (turned : turn str sep s = some t) :
    Placed str sep t := by
  obtain ⟨-, turned⟩ := turn_spec turned
  intro open_
  cases turned with
  | ended rest => cases open_
  | last more free => cases open_
  | start first rest =>
    rw [List.drop_zero] at rest
    exact .inr ⟨0, rfl, by rw [rest]; rfl⟩
  | word w more free rest =>
    refine .inr ⟨s.prev + w.length, rfl, ?_⟩
    rw [← List.getElem?_drop, rest, List.getElem?_append_right (Nat.le_refl _), Nat.sub_self]
    rfl
  | stuck behind rest => exact placed open_

/-- What is left to scan, with the turn that leaves the loop. -/
def remaining (str : Str) (s : Scan) : Nat := if s.left then 0 else str.length - s.prev + 1

/-- **A string without two separators in a row moves the scan on.** -/
theorem remaining_turn (single : Single sep str) (placed : Placed str sep s)
    (turned : turn str sep s = some t) : remaining str t < remaining str s := by
  obtain ⟨open_, turned⟩ := turn_spec turned
  unfold remaining
  rw [open_, if_neg Bool.false_ne_true]
  cases turned with
  | ended rest => exact Nat.succ_pos _
  | last more free => exact Nat.succ_pos _
  | start first rest =>
    dsimp only
    rw [open_, if_neg Bool.false_ne_true, first]
    have := congrArg List.length rest
    rw [List.length_drop, List.length_cons] at this
    omega
  | word w more free rest =>
    dsimp only
    rw [open_, if_neg Bool.false_ne_true]
    have := congrArg List.length rest
    rw [List.length_drop, List.length_append, List.length_cons] at this
    omega
  | stuck behind rest =>
    obtain zero | ⟨i, at_, before⟩ := placed open_
    · exact absurd zero behind
    · refine absurd ?_ single
      have pair : str.drop i = [sep, sep] ++ str.drop (i + 2) := by
        obtain ⟨inside, here⟩ := List.getElem?_eq_some_iff.mp before
        rw [← List.getElem_cons_drop inside, here, ← at_, rest, at_]
        rfl
      exact ⟨str.take i, str.drop (i + 2), by
        rw [List.append_assoc, ← pair, List.take_append_drop]⟩

/-- **What `split` returns** are the words, and the string has no two separators in a row. -/
theorem scan_some {fuel : Nat} {v : List Str} (returned : scan fuel str sep = some v) :
    Single sep str ∧ v = runs sep str := by
  unfold scan at returned
  dsimp only at returned
  split at returned
  · rename_i left
    cases returned
    refine ⟨fun pair => ?_, ?_⟩
    · obtain ⟨before, after, rfl⟩ := pair
      have ahead : Ahead (before ++ [sep, sep] ++ after) sep
          (Lib.loop (turn (before ++ [sep, sep] ++ after) sep) fuel ⟨0, [], false⟩) :=
        Lib.loop_keeps (fun _ _ ahead turned => ahead.turn turned) fuel
          ⟨rfl, before.length, Nat.zero_le _, after, by
            rw [List.append_assoc, List.drop_left]
            rfl⟩
      rw [ahead.1] at left
      cases left
    · have scanned : Scanned str sep (Lib.loop (turn str sep) fuel ⟨0, [], false⟩) :=
        Lib.loop_keeps (fun _ _ scanned turned => scanned.turn turned) fuel rfl
      unfold Scanned at scanned
      rw [left, if_pos rfl, List.append_nil] at scanned
      exact scanned
  · cases returned

/-- **`split` returns**, if there are no two separators in a row. -/
theorem scan_enough (single : Single sep str) {fuel : Nat} (enough : str.length < fuel) :
    scan fuel str sep = some (runs sep str) := by
  have exits := Lib.loop_exits_of_invariant (fun _ _ placed turned => Placed.turn placed turned)
    (remaining str) (fun _ _ placed turned => remaining_turn single placed turned) fuel
    (s := (⟨0, [], false⟩ : Scan)) (fun _ => Or.inl rfl) enough
  have left := turn_none.mp exits
  have returned : scan fuel str sep =
      some (Lib.loop (turn str sep) fuel ⟨0, [], false⟩).v := if_pos left
  rw [returned, (scan_some returned).2]

theorem scan_isSome {fuel : Nat} (returned : (scan fuel str sep).isSome) :
    Single sep str ∧ scan fuel str sep = some (runs sep str) := by
  obtain ⟨v, returned⟩ := Option.isSome_iff_exists.mp returned
  have words := scan_some returned
  exact ⟨words.1, by rw [returned, words.2]⟩

theorem scan_returns_iff (str : Str) (sep : Char) :
    (∃ fuel, scan fuel str sep = some (runs sep str)) ↔ Single sep str :=
  ⟨fun ⟨_, returned⟩ => (scan_some returned).1,
    fun single => ⟨str.length + 1, scan_enough single (Nat.lt_succ_self _)⟩⟩

end Split

/-! ### The runs of a string -/

section Runs

variable {str : Str} {sep c : Char}

/-- A pair of one character lies before or behind another character. -/
theorem single_append_cons (ne : c ≠ sep) (word rest : Str) :
    Single c (word ++ sep :: rest) ↔ Single c word ∧ Single c rest := by
  unfold Single
  rw [← not_or, not_iff_not]
  induction word with
  | nil =>
    rw [List.nil_append, List.infix_cons_iff, List.cons_prefix_cons]
    have away : ¬ (c = sep ∧ [c] <+: rest) := fun same => ne same.1
    have none : ¬ [c, c] <:+: ([] : Str) := fun pair => by simpa using pair.length_le
    rw [or_iff_right away, or_iff_right none]
  | cons a word ih =>
    rw [List.cons_append, List.infix_cons_iff, ih, List.infix_cons_iff, or_assoc, List.cons_prefix_cons,
      List.cons_prefix_cons]
    refine or_congr_left (and_congr_right fun _ => ?_)
    cases word with
    | nil =>
      rw [List.nil_append, List.cons_prefix_cons]
      exact iff_of_false (fun same => ne same.1) (fun none => by simpa using none.length_le)
    | cons b word =>
      rw [List.cons_append, List.cons_prefix_cons, List.cons_prefix_cons]
      exact and_congr_right fun _ => iff_of_true List.nil_prefix List.nil_prefix

/-- **The runs between other separators** have no pair exactly if the string has none. -/
theorem single_runs (ne : c ≠ sep) (str : Str) :
    (∀ it ∈ runs sep str, Single c it) ↔ Single c str := by
  induction n : str.length using Nat.strong_induction_on generalizing str with
  | _ n ih =>
    subst n
    by_cases member : sep ∈ str
    · obtain ⟨word, rest, rfl, free⟩ := List.eq_append_cons_of_mem member
      have fewer : rest.length < (word ++ sep :: rest).length := by
        rw [List.length_append, List.length_cons]
        omega
      rw [single_append_cons ne, ← ih _ fewer rest rfl]
      by_cases none : word = []
      · have empty : Single c ([] : Str) := fun pair => by simpa using pair.length_le
        rw [none, List.nil_append, runs_cons, and_iff_right empty]
      · rw [runs_word_cons free none, List.forall_mem_cons]
    · by_cases none : str = []
      · subst none
        exact iff_of_true (fun it => nofun) fun pair => by simpa using pair.length_le
      · rw [runs_word member none, List.forall_mem_singleton]

theorem length_of_mem_runs {it : Str} (member : it ∈ runs sep str) : it.length ≤ str.length := by
  have part : it ∈ str.splitOn sep := (List.mem_filter.mp member).1
  induction n : str.length using Nat.strong_induction_on generalizing str with
  | _ n ih =>
    subst n
    by_cases inside : sep ∈ str
    · obtain ⟨word, rest, rfl, free⟩ := List.eq_append_cons_of_mem inside
      have fewer : rest.length < (word ++ sep :: rest).length := by
        rw [List.length_append, List.length_cons]
        omega
      rw [List.splitOn_append_cons_self_of_not_mem free] at part
      cases part with
      | head =>
        rw [List.length_append]
        exact Nat.le_add_right _ _
      | tail _ part =>
        have kept : it ∈ runs sep rest := List.mem_filter.mpr ⟨part, (List.mem_filter.mp member).2⟩
        exact Nat.le_of_lt (Nat.lt_of_le_of_lt (ih _ fewer kept part rfl) fewer)
    · rw [List.splitOn_eq_singleton inside] at part
      rw [List.mem_singleton.mp part]

end Runs

/-! ### What the lists return -/

section Lists

variable {conf : Option Configuration} {fuel : Nat} {it str : Str}

theorem isSome_mapM {α β : Type} (f : α → Option β) (items : List α) :
    (items.mapM f).isSome ↔ ∀ item ∈ items, (f item).isSome := by
  induction items with
  | nil => simp
  | cons item items ih =>
    rw [List.mapM_cons, List.forall_mem_cons, ← ih]
    cases f item with
    | none => simp
    | some b => cases items.mapM f <;> simp

/-- **When a list is returned**: the split of the text is, and every item of it. -/
theorem list_isSome {β : Type} (item : Str → Option (Option β)) :
    (do
      let lst ← scan fuel str ','
      let items ← lst.mapM item
      return items.reduceOption).isSome ↔
      (scan fuel str ',').isSome ∧ ∀ it ∈ runs ',' str, (item it).isSome := by
  cases returned : scan fuel str ',' with
  | none => exact iff_of_false Bool.false_ne_true fun both => Bool.false_ne_true both.1
  | some lst =>
    rw [(scan_some returned).2, ← isSome_mapM, Option.isSome_some, and_iff_right rfl]
    show (List.mapM item (runs ',' str) >>= fun items => some items.reduceOption).isSome ↔ _
    cases List.mapM item (runs ',' str) with
    | none => exact Iff.rfl
    | some items => exact Iff.rfl

theorem sinfoAt_isSome (s : Str) (val : Int) :
    (sinfoAt (scan fuel) conf s val).isSome ↔ (scan fuel s '@').isSome := by
  unfold sinfoAt
  cases scan fuel s '@' with
  | none => exact Iff.rfl
  | some t =>
    match t with
    | [] => exact Iff.rfl
    | [_] => exact Iff.rfl
    | [_, _] => exact Iff.rfl
    | _ :: _ :: _ :: _ => exact Iff.rfl

/-- The part of an item before `=` that is cut at `@`: the item has one run, or two. -/
def Head (it s : Str) : Prop := runs '=' it = [s] ∨ ∃ v, runs '=' it = [s, v]

theorem sinfo_isSome : (sinfo (scan fuel) conf it).isSome ↔
    (scan fuel it '=').isSome ∧ ∀ s, Head it s → (scan fuel s '@').isSome := by
  unfold sinfo Head
  cases returned : scan fuel it '=' with
  | none => exact iff_of_false Bool.false_ne_true fun both => Bool.false_ne_true both.1
  | some p =>
    rw [← (scan_some returned).2, Option.isSome_some, and_iff_right rfl]
    match p with
    | [] => exact iff_of_true rfl fun s head => by simp at head
    | [s] =>
      show (sinfoAt _ conf s 0).isSome ↔ _
      rw [sinfoAt_isSome]
      exact ⟨fun returned s' head => by simp at head; exact head ▸ returned,
        fun all => all s (.inl rfl)⟩
    | [s, v] =>
      show (sinfoAt _ conf s (uniAtoi v)).isSome ↔ _
      rw [sinfoAt_isSome]
      exact ⟨fun returned s' head => by simp at head; exact head ▸ returned,
        fun all => all s (.inr ⟨v, rfl⟩)⟩
    | _ :: _ :: _ :: _ => exact iff_of_true rfl fun s head => by simp at head

theorem objectInfo_isSome {conf : Configuration} :
    (objectInfo (scan fuel) conf it).isSome ↔ (scan fuel it '@').isSome := by
  unfold objectInfo
  cases scan fuel it '@' with
  | none => exact Iff.rfl
  | some t =>
    match t with
    | [] => exact Iff.rfl
    | [_] => exact Iff.rfl
    | [_, _] => exact Iff.rfl
    | _ :: _ :: _ :: _ => exact Iff.rfl

/-- **The text of a list of sensors** that is parsed: no `,,`, no `==`, and no `@@` before the `=` of
an item with one or two parts. -/
def SInfoText (str : Str) : Prop :=
  Single ',' str ∧ Single '=' str ∧ ∀ it ∈ runs ',' str, ∀ s, Head it s → Single '@' s

/-- **The text of a list of objects** that is parsed: no `,,` and no `@@`. -/
def ObjectsText (str : Str) : Prop := Single ',' str ∧ Single '@' str

theorem head_length {s : Str} (head : Head it s) : s.length ≤ it.length := by
  have member : s ∈ runs '=' it := by
    obtain one | ⟨v, two⟩ := head
    · rw [one]
      exact List.mem_singleton_self s
    · rw [two]
      exact List.mem_cons_self
  exact length_of_mem_runs member

theorem sinfoText_iff (str : Str) : SInfoText str ↔
    Single ',' str ∧ ∀ it ∈ runs ',' str, Single '=' it ∧ ∀ s, Head it s → Single '@' s := by
  unfold SInfoText
  rw [← single_runs (show '=' ≠ ',' by decide)]
  simp only [forall_and]

/-- **When the list of sensors is returned.** -/
theorem getSInfoList_returns_iff (conf : Option Configuration) (str : Str) :
    (∃ fuel, (getSInfoList fuel conf str).isSome) ↔ SInfoText str := by
  rw [sinfoText_iff]
  constructor
  · intro ⟨fuel, returned⟩
    obtain ⟨cut, items⟩ := (list_isSome _).mp returned
    refine ⟨(scan_isSome cut).1, fun it member => ?_⟩
    obtain ⟨cut, heads⟩ := sinfo_isSome.mp (items it member)
    exact ⟨(scan_isSome cut).1, fun s head => (scan_isSome (heads s head)).1⟩
  · intro ⟨single, items⟩
    refine ⟨str.length + 1, (list_isSome _).mpr ⟨?_, fun it member => sinfo_isSome.mpr ⟨?_, ?_⟩⟩⟩
    · exact Option.isSome_of_eq_some (scan_enough single (Nat.lt_succ_self _))
    · have short := Nat.lt_succ_of_le (length_of_mem_runs member)
      exact Option.isSome_of_eq_some (scan_enough (items it member).1 short)
    · intro s head
      have short := Nat.lt_succ_of_le (Nat.le_trans (head_length head) (length_of_mem_runs member))
      exact Option.isSome_of_eq_some (scan_enough ((items it member).2 s head) short)

/-- **When the list of objects is returned.** -/
theorem getObjectsList_returns_iff (conf : Configuration) (str : Str) :
    (∃ fuel, (getObjectsList fuel conf str).isSome) ↔ ObjectsText str := by
  unfold ObjectsText
  rw [← single_runs (show '@' ≠ ',' by decide)]
  constructor
  · intro ⟨fuel, returned⟩
    obtain ⟨cut, items⟩ := (list_isSome _).mp returned
    exact ⟨(scan_isSome cut).1,
      fun it member => (scan_isSome (objectInfo_isSome.mp (items it member))).1⟩
  · intro ⟨single, items⟩
    refine ⟨str.length + 1, (list_isSome _).mpr ⟨?_, fun it member => objectInfo_isSome.mpr ?_⟩⟩
    · exact Option.isSome_of_eq_some (scan_enough single (Nat.lt_succ_self _))
    · have short := Nat.lt_succ_of_le (length_of_mem_runs member)
      exact Option.isSome_of_eq_some (scan_enough (items it member) short)

end Lists

/-- **When `split` and the lists return**: `split` returns, and then the runs, exactly for a string
without two separators in a row; a list is returned exactly for a text whose splits all return. -/
theorem split_returns_iff (str : Str) (sep : Char) (conf : Option Configuration)
    (oconf : Configuration) :
    ((∃ fuel, split fuel str sep = some (runs sep str)) ↔ Single sep str) ∧
    ((∃ fuel, splitSv fuel str sep = some (runs sep str)) ↔ Single sep str) ∧
    ((∃ fuel, (getSInfoList fuel conf str).isSome) ↔ SInfoText str) ∧
    ((∃ fuel, (getSInfoListSv fuel conf str).isSome) ↔ SInfoText str) ∧
    ((∃ fuel, (getObjectsList fuel oconf str).isSome) ↔ ObjectsText str) :=
  ⟨scan_returns_iff str sep, scan_returns_iff str sep, getSInfoList_returns_iff conf str,
    getSInfoList_returns_iff conf str, getObjectsList_returns_iff oconf str⟩

/-- **Two separators in a row** keep `split` in its loop: it returns after no number of turns, nor do
the lists. -/
theorem double_separator_never_returns :
    (∀ fuel, split fuel "a,,b".toList ',' = none) ∧
    ¬ ((∀ str sep, ∃ fuel, split fuel str sep = some (runs sep str)) ∧
      (∀ str sep, ∃ fuel, splitSv fuel str sep = some (runs sep str)) ∧
      (∀ conf str, ∃ fuel, (getSInfoList fuel conf str).isSome) ∧
      (∀ conf str, ∃ fuel, (getSInfoListSv fuel conf str).isSome) ∧
      (∀ conf str, ∃ fuel, (getObjectsList fuel conf str).isSome)) := by
  have double : ¬ Single ',' "a,,b".toList := by decide
  refine ⟨fun fuel => ?_, fun claim => ?_⟩
  · rw [← Option.not_isSome_iff_eq_none]
    exact fun returned => double (scan_isSome returned).1
  · obtain ⟨fuel, returned⟩ := claim.1 "a,,b".toList ','
    exact double (scan_some returned).1

end UniSet.Core
