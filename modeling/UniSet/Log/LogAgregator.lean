/-
**Logs and aggregators of logs.**

* `Stream` — a `DebugStream`; an aggregator has logs by name and the logs it is connected to.
* `create`, `add` — the calls that build a hierarchy.
* `getLogList` — the logs below an aggregator, by name or by a rule for names.
* `emit` — the aggregators in whose streams a line appears.
* `Contains` — a log belongs to an aggregator, directly or through its child aggregators.
* **`mem_getLogList`**: in an acyclic hierarchy `getLogList` returns, and its logs are those the
  aggregator contains.
-/

import Mathlib.Data.List.Sort
import Mathlib.Logic.Function.Basic
import UniSet.Lib.Cascade

namespace UniSet.Log

/-- **`DebugStream`**, with what it is as a `LogAgregator`. -/
structure Stream where
  logName : String
  isAgregator : Bool
  /-- The logs of an aggregator by name. -/
  lmap : List (String × Nat)
  /-- The logs an aggregator is connected to. -/
  conmap : List Nat
  /-- The aggregators connected to the signal of the stream. -/
  slots : List Nat
deriving DecidableEq, Repr

/-- **The streams of a program.** -/
structure Store where
  count : Nat
  stream : Nat → Stream

/-- `iLog`: a log and its full name. -/
structure ILog where
  log : Nat
  name : String
deriving DecidableEq, Repr

/-- `LogAgregator::sep`. -/
def sep : String := "/"

/-- `splitFirst`: the name up to the first separator, and the rest. -/
def splitFirst (lname : List Char) : List Char × List Char :=
  (lname.takeWhile (· ≠ '/'), (lname.dropWhile (· ≠ '/')).tail)

namespace Store

/-- The log of a name. -/
def find (s : Store) (a : Nat) (name : String) : Option Nat := (s.stream a).lmap.lookup name

/-- `findLog`, with at most as many turns as the name has characters. -/
def findLog (s : Store) : Nat → Nat → List Char → Option Nat
  | 0, a, lname => s.find a (String.ofList lname)
  | n + 1, a, lname =>
    match (splitFirst lname).2 with
    | [] => s.find a (String.ofList lname)
    | rest =>
      match s.find a (String.ofList (splitFirst lname).1) with
      | none => none
      | some l => if (s.stream l).isAgregator then s.findLog n l rest else some l

/-- `getLog`. -/
def getLog (s : Store) (a : Nat) (logname : String) : Option Nat :=
  if logname = "" then none else s.findLog logname.toList.length a logname.toList

/-! ### The lists of logs -/

/-- The names of the entries of an aggregator: `call` goes into its children. -/
def entries (s : Store) (call : Nat × String → Option (List ILog)) (p2 : String) :
    List (String × Nat) → Option (List ILog)
  | [] => some []
  | e :: rest =>
    (if (s.stream e.2).isAgregator then call (e.2, p2)
      else some [⟨e.2, p2 ++ (s.stream e.2).logName⟩]).bind fun here =>
        (entries s call p2 rest).map (here ++ ·)

/-- The body of `makeLogNameList`. -/
def nameList (s : Store) (call : Nat × String → Option (List ILog)) (a : Nat × String) :
    Option (List ILog) :=
  s.entries call (a.2 ++ (s.stream a.1).logName ++ sep) (s.stream a.1).lmap

/-- `makeLogNameList`: as many nested calls as there are streams suffice without a cycle. -/
def makeLogNameList (s : Store) (a : Nat) (pre : String) : Option (List ILog) :=
  Lib.unroll s.nameList (s.count + 1) (a, pre)

/-- The order of names. -/
def byName (lst : List ILog) : List ILog := lst.insertionSort fun a b => ¬ b.name < a.name

/-- **`getLogList`** of all logs. -/
def getLogList (s : Store) (a : Nat) : Option (List ILog) := (s.makeLogNameList a "").map byName

/-- The entries of an aggregator whose names meet a rule; a child that meets it gives all its logs. -/
def ruleEntries (s : Store) (rule : String → Bool) (call : Nat × String → Option (List ILog))
    (p2 : String) : List (String × Nat) → Option (List ILog)
  | [] => some []
  | e :: rest =>
    (if !rule (s.stream e.2).logName then
        if (s.stream e.2).isAgregator then call (e.2, p2) else some []
      else if (s.stream e.2).isAgregator then s.getLogList e.2
      else some [⟨e.2, p2 ++ (s.stream e.2).logName⟩]).bind fun here =>
        (ruleEntries s rule call p2 rest).map (here ++ ·)

/-- The body of `getListByLogNameWithRule`. -/
def ruleList (s : Store) (rule : String → Bool) (call : Nat × String → Option (List ILog))
    (a : Nat × String) : Option (List ILog) :=
  s.ruleEntries rule call (a.2 ++ (s.stream a.1).logName ++ sep) (s.stream a.1).lmap

/-- **`getLogList`** by a regular expression. -/
def getLogListByRule (s : Store) (rule : String → Bool) (a : Nat) : Option (List ILog) :=
  Lib.unroll (s.ruleList rule) (s.count + 1) (a, "")

/-! ### Building a hierarchy -/

/-- One stream changes. -/
def setStream (s : Store) (i : Nat) (x : Stream) : Store :=
  { s with stream := Function.update s.stream i x }

/-- An aggregator connects itself to the signal of a log. -/
def connect (s : Store) (l a : Nat) : Store :=
  let s := s.setStream l { s.stream l with slots := (s.stream l).slots ++ [a] }
  s.setStream a { s.stream a with conmap := (s.stream a).conmap ++ [l] }

/-- It does so once. -/
def connectOnce (s : Store) (l a : Nat) : Store := if l ∈ (s.stream a).conmap then s else s.connect l a

/-- `lmap[lname] = l`. -/
def setLog (s : Store) (a : Nat) (lname : String) (l : Nat) : Store :=
  s.setStream a { s.stream a with
    lmap := (s.stream a).lmap.filter (fun e => e.1 ≠ lname) ++ [(lname, l)] }

/-- A new stream. -/
def make (s : Store) (logName : String) (isAgregator : Bool) : Store :=
  { count := s.count + 1
    stream := Function.update s.stream s.count ⟨logName, isAgregator, [], [], []⟩ }

/-- **`LogAgregator::create`**, without the stream it returns. -/
def create (s : Store) (a : Nat) (logname : String) : Store :=
  match s.getLog a logname with
  | some _ => s
  | none => ((s.make logname false).connect s.count a).setLog a logname s.count

/-- `addLogAgregator`. -/
def addLogAgregator (s : Store) (a la : Nat) (lname : String) : Option Store :=
  match s.find a lname with
  | some _ => some s
  | none => (s.getLogList la).map fun lst =>
      (lst.foldl (fun s l => s.connectOnce l.log a) s).setLog a lname la

/-- `addLog` with a connection. -/
def addLog (s : Store) (a l : Nat) (lname : String) : Store :=
  match s.find a lname with
  | some _ => s
  | none => (s.connectOnce l a).setLog a lname l

/-- **`LogAgregator::add`**, `none` where it does not return. -/
def add (s : Store) (a l : Nat) (lname : String) : Option Store :=
  let lname := if lname = "" then (s.stream l).logName else lname
  if (s.stream l).isAgregator then s.addLogAgregator a l lname else some (s.addLog a l lname)

/-- **The aggregators in whose streams a line appears**, one after another: each of them writes it on. -/
def emit (s : Store) : Nat → Nat → List Nat
  | 0, _ => []
  | n + 1, l => (s.stream l).slots.flatMap fun a => a :: s.emit n a

/-! ### What an aggregator contains -/

/-- A child aggregator. -/
def Child (s : Store) (a c : Nat) : Prop :=
  (∃ lname, (lname, c) ∈ (s.stream a).lmap) ∧ (s.stream c).isAgregator = true

/-- **The hierarchy has no cycle.** -/
def Acyclic (s : Store) : Prop := Lib.Acyclic s.Child

/-- **The aggregator contains the log**, directly or through its children. -/
inductive Contains (s : Store) : Nat → Nat → Prop
  | log {a l : Nat} {lname : String} (entry : (lname, l) ∈ (s.stream a).lmap)
      (leaf : (s.stream l).isAgregator = false) : Contains s a l
  | child {a c l : Nat} (child : s.Child a c) (below : Contains s c l) : Contains s a l

/-- The entries are streams of the program. -/
def Closed (s : Store) : Prop := ∀ a lname l, (lname, l) ∈ (s.stream a).lmap → l < s.count

variable {s : Store}

theorem Contains.leaf {a l : Nat} (contains : s.Contains a l) : (s.stream l).isAgregator = false := by
  induction contains with
  | log _ leaf => exact leaf
  | child _ _ ih => exact ih

theorem entries_isSome {call : Nat × String → Option (List ILog)} {p2 : String}
    {lmap : List (String × Nat)}
    (calls : ∀ e ∈ lmap, (s.stream e.2).isAgregator = true → (call (e.2, p2)).isSome) :
    (s.entries call p2 lmap).isSome := by
  induction lmap with
  | nil => rfl
  | cons e rest ih =>
    have later := ih fun e' he' => calls e' (List.mem_cons_of_mem _ he')
    unfold entries
    split
    · next agregator =>
      obtain ⟨here, h⟩ := Option.isSome_iff_exists.mp (calls e List.mem_cons_self agregator)
      rw [h, Option.bind_some, Option.isSome_map]
      exact later
    · rw [Option.bind_some, Option.isSome_map]
      exact later

/-- **Without a cycle the list of names is finite.** -/
theorem makeLogNameList_isSome (acyclic : s.Acyclic) (closed : s.Closed) (a : Nat) (pre : String) :
    (s.makeLogNameList a pre).isSome := by
  refine Lib.unroll_isSome (fun x => Lib.height s.Child (List.range s.count) x.1) ?_ _ _ ?_
  · rintro call ⟨a, pre⟩ calls
    refine entries_isSome fun e he agregator => calls _ ?_
    exact Lib.height_lt acyclic ⟨⟨e.1, he⟩, agregator⟩ (List.mem_range.mpr (closed a e.1 e.2 he))
  · have bound : Lib.height s.Child (List.range s.count) a ≤ (List.range s.count).length :=
      Lib.height_le _ a
    rw [List.length_range] at bound
    exact Nat.lt_succ_of_le bound

theorem mem_entries {call : Nat × String → Option (List ILog)} {p2 : String}
    (calls : ∀ c lst, call (c, p2) = some lst → ∀ l, l ∈ lst.map ILog.log ↔ s.Contains c l)
    {lmap : List (String × Nat)} {lst : List ILog} (listed : s.entries call p2 lmap = some lst) (l : Nat) :
    l ∈ lst.map ILog.log ↔ ∃ e ∈ lmap, ((s.stream e.2).isAgregator = false ∧ e.2 = l) ∨
      (s.stream e.2).isAgregator = true ∧ s.Contains e.2 l := by
  induction lmap generalizing lst with
  | nil =>
    cases listed
    simp
  | cons e rest ih =>
    unfold entries at listed
    obtain ⟨here, hhere, more⟩ := Option.bind_eq_some_iff.mp listed
    obtain ⟨later, hlater, rfl⟩ := Option.map_eq_some_iff.mp more
    have first : l ∈ here.map ILog.log ↔ ((s.stream e.2).isAgregator = false ∧ e.2 = l) ∨
        (s.stream e.2).isAgregator = true ∧ s.Contains e.2 l := by
      cases kind : (s.stream e.2).isAgregator with
      | true =>
        rw [kind, if_pos rfl] at hhere
        rw [calls _ _ hhere l]
        simp
      | false =>
        rw [kind, if_neg Bool.false_ne_true] at hhere
        cases hhere
        simp [eq_comm]
    rw [List.map_append, List.mem_append, first, ih hlater]
    simp only [List.mem_cons, exists_eq_or_imp]

theorem contains_iff (a l : Nat) : s.Contains a l ↔ ∃ e ∈ (s.stream a).lmap,
    ((s.stream e.2).isAgregator = false ∧ e.2 = l) ∨
      (s.stream e.2).isAgregator = true ∧ s.Contains e.2 l := by
  constructor
  · intro contains
    cases contains with
    | log entry leaf => exact ⟨_, entry, Or.inl ⟨leaf, rfl⟩⟩
    | child child below =>
      obtain ⟨⟨lname, entry⟩, agregator⟩ := child
      exact ⟨_, entry, Or.inr ⟨agregator, below⟩⟩
  · rintro ⟨e, entry, ⟨leaf, rfl⟩ | ⟨agregator, below⟩⟩
    · exact .log entry leaf
    · exact .child ⟨⟨e.1, entry⟩, agregator⟩ below

theorem mem_makeLogNameList {a : Nat} {pre : String} {lst : List ILog}
    (listed : s.makeLogNameList a pre = some lst) (l : Nat) :
    l ∈ lst.map ILog.log ↔ s.Contains a l := by
  have step : ∀ call : Nat × String → Option (List ILog),
      (∀ c p2 lst, call (c, p2) = some lst → ∀ l, l ∈ lst.map ILog.log ↔ s.Contains c l) →
      ∀ c p2 lst, s.nameList call (c, p2) = some lst → ∀ l, l ∈ lst.map ILog.log ↔ s.Contains c l := by
    intro call ih c p2 lst h l
    rw [contains_iff]
    exact mem_entries (fun c' lst' h' => ih c' _ lst' h') h l
  exact Lib.unroll_induct (S := fun call => ∀ c p2 lst, call (c, p2) = some lst →
    ∀ l, l ∈ lst.map ILog.log ↔ s.Contains c l) (fun _ _ _ h => nomatch h) step (s.count + 1) a pre lst
    listed l

/-- **The logs `getLogList` returns are those the aggregator contains.** -/
theorem mem_getLogList {a : Nat} {lst : List ILog} (listed : s.getLogList a = some lst) (l : Nat) :
    l ∈ lst.map ILog.log ↔ s.Contains a l := by
  obtain ⟨names, hnames, rfl⟩ := Option.map_eq_some_iff.mp listed
  rw [← mem_makeLogNameList hnames l]
  exact ((List.perm_insertionSort _ names).map ILog.log).mem_iff

theorem getLogList_isSome (acyclic : s.Acyclic) (closed : s.Closed) (a : Nat) :
    (s.getLogList a).isSome := by
  unfold getLogList
  rw [Option.isSome_map]
  exact makeLogNameList_isSome acyclic closed a ""

end Store

end UniSet.Log
