/-
**The log server: a line and the sessions that read it.**

* `turn`, `logOnEvent` — the loop that hands a line to the sessions and removes those whose write fails.
* `Server` — the sessions, and the connections the commands have made.
* `Delivers` — a line of a selected log is handed to every open session once, any other line to none.
* `handedBy`, `keptBy` — what one pass over the sessions does: behind a failed write the next session
  is left out (`loop_pass`).
* **`sessions_served`**: a run keeps the law if each line is received as often as it is selected and no write
  fails except the last of several.
-/

import Mathlib.Algebra.GroupWithZero.Nat
import Mathlib.Data.List.Nodup
import UniSet.Lib.Loop
import UniSet.Log.Hierarchy

namespace UniSet.Log

/-! ### One pass over the sessions -/

/-- The sessions during `logOnEvent`. -/
structure Pass where
  slist : List Nat
  /-- The sessions that are `done`. -/
  ended : List Nat
  it : Nat
  /-- The sessions whose writer gets the line. -/
  handed : List Nat
  /-- Those whose `Write` returns `false`. -/
  failed : List Nat
  /-- The iterator has left the list. -/
  left : Bool
deriving DecidableEq, Repr

namespace Pass

/-- `term`. -/
def term (p : Pass) (s : Nat) : Pass := { p with ended := p.ended ++ [s] }

/-- `it = slist.erase(it)` and the correction of the iterator. -/
def erase (p : Pass) : Pass :=
  let slist := p.slist.eraseIdx p.it
  if p.it = slist.length then
    if p.it = 0 then { p with slist := slist, left := true }
    else { p with slist := slist, it := p.it - 1 }
  else { p with slist := slist }

/-- One turn of the loop, `none` at the end of the list. -/
def turn (fails : Nat → Bool) (p : Pass) : Option Pass :=
  if p.left then none
  else
    (p.slist[p.it]?).map fun s =>
      let p := { p with handed := p.handed ++ [s] }
      let p := if fails s then ({ p with failed := p.failed ++ [s] }.term s).erase else p
      { p with it := p.it + 1 }

/-- **`LogServer::logOnEvent`.** -/
def logOnEvent (p : Pass) (fails : Nat → Bool) : Pass :=
  Lib.loop (turn fails) p.slist.length { p with it := 0 }

end Pass

/-- The sessions a pass hands the line to. -/
def handedBy (fails : Nat → Bool) : List Nat → List Nat
  | [] => []
  | [s] => [s]
  | s :: r :: rest =>
    if fails s then s :: handedBy fails rest else s :: handedBy fails (r :: rest)

/-- The sessions a pass leaves in the list. -/
def keptBy (fails : Nat → Bool) : List Nat → List Nat
  | [] => []
  | [s] => if fails s then [] else [s]
  | s :: r :: rest => if fails s then r :: keptBy fails rest else s :: keptBy fails (r :: rest)

/-- The pass ends outside the list: its only session fails. -/
def Leaves (fails : Nat → Bool) (slist : List Nat) : Prop := ∃ s, slist = [s] ∧ fails s = true

section OnePass

theorem turn_session (fails : Nat → Bool) (before rest : List Nat) (s : Nat) (ended handed failed : List Nat) :
    Pass.turn fails ⟨before ++ s :: rest, ended, before.length, handed, failed, false⟩ =
      some (
        if fails s then
          if rest = [] then
            if before = [] then ⟨[], ended ++ [s], 1, handed ++ [s], failed ++ [s], true⟩
            else ⟨before, ended ++ [s], before.length, handed ++ [s], failed ++ [s], false⟩
          else ⟨before ++ rest, ended ++ [s], before.length + 1, handed ++ [s], failed ++ [s], false⟩
        else ⟨before ++ s :: rest, ended, before.length + 1, handed ++ [s], failed, false⟩) := by
  have here : (before ++ s :: rest)[before.length]? = some s := by simp
  have gone : (before ++ s :: rest).eraseIdx before.length = before ++ rest := by
    rw [List.eraseIdx_append_of_length_le (Nat.le_refl _), Nat.sub_self, List.eraseIdx_cons_zero]
  unfold Pass.turn
  simp only [Bool.false_eq_true, if_false, here, Option.map_some]
  cases fails s with
  | false => rfl
  | true =>
    simp only [if_true, Pass.term, Pass.erase, gone, List.length_append]
    cases rest with
    | nil =>
      cases before with
      | nil => rfl
      | cons b before => simp
    | cons r rest => simp

/-- **What a pass does** from a position on. -/
theorem loop_pass (fails : Nat → Bool) (rest : List Nat) : ∀ (before ended handed failed : List Nat) (n : Nat),
    rest.length ≤ n → (before = [] → ¬ Leaves fails rest) →
    ∃ it, Lib.loop (Pass.turn fails) n
        ⟨before ++ rest, ended, before.length, handed, failed, false⟩ =
      ⟨before ++ keptBy fails rest, ended ++ (handedBy fails rest).filter fails, it,
        handed ++ handedBy fails rest, failed ++ (handedBy fails rest).filter fails, false⟩ := by
  induction rest using handedBy.induct fails with
  | case1 =>
    intro before ended handed failed n _ _
    refine ⟨before.length, ?_⟩
    rw [Lib.loop_none]
    · simp [keptBy, handedBy]
    · simp [Pass.turn]
  | case2 s =>
    intro before ended handed failed n enough inside
    obtain ⟨m, rfl⟩ := Nat.exists_eq_succ_of_ne_zero (Nat.one_le_iff_ne_zero.mp enough)
    rw [Lib.loop_some (turn_session fails before [] s ended handed failed)]
    cases bad : fails s with
    | false =>
      refine ⟨before.length + 1, ?_⟩
      rw [if_neg Bool.false_ne_true, Lib.loop_none]
      · simp [keptBy, handedBy, bad]
      · simp [Pass.turn]
    | true =>
      have more : before ≠ [] := fun nothing => inside nothing ⟨s, rfl, bad⟩
      refine ⟨before.length, ?_⟩
      rw [if_pos rfl, if_pos rfl, if_neg more, Lib.loop_none]
      · simp [keptBy, handedBy, bad]
      · simp [Pass.turn]
  | case3 s r rest bad ih =>
    intro before ended handed failed n enough _
    obtain ⟨m, rfl⟩ := Nat.exists_eq_succ_of_ne_zero (Nat.ne_zero_of_lt enough)
    -- the iterator stands on `r` and goes on to the session behind it
    obtain ⟨it, looped⟩ := ih (before ++ [r]) (ended ++ [s]) (handed ++ [s]) (failed ++ [s]) m
      (Nat.le_of_succ_le (Nat.le_of_succ_le_succ enough)) (fun nothing => by simp at nothing)
    refine ⟨it, ?_⟩
    rw [Lib.loop_some (turn_session fails before (r :: rest) s ended handed failed), if_pos bad,
      if_neg (List.cons_ne_nil r rest)]
    simpa [keptBy, handedBy, bad] using looped
  | case4 s r rest good ih =>
    intro before ended handed failed n enough _
    obtain ⟨m, rfl⟩ := Nat.exists_eq_succ_of_ne_zero (Nat.ne_zero_of_lt enough)
    obtain ⟨it, looped⟩ := ih (before ++ [s]) ended (handed ++ [s]) failed m
      (Nat.le_of_succ_le_succ enough) (fun nothing => by simp at nothing)
    refine ⟨it, ?_⟩
    rw [Lib.loop_some (turn_session fails before (r :: rest) s ended handed failed), if_neg good]
    simpa [keptBy, handedBy, good] using looped

variable {fails : Nat → Bool}

theorem handedBy_sublist (slist : List Nat) : (handedBy fails slist).Sublist slist := by
  induction slist using handedBy.induct fails with
  | case1 => exact .slnil
  | case2 s => exact .refl _
  | case3 s r rest bad ih =>
    rw [handedBy, if_pos bad]
    exact .cons_cons s (.cons r ih)
  | case4 s r rest good ih =>
    rw [handedBy, if_neg good]
    exact .cons_cons s ih

theorem keptBy_sublist (slist : List Nat) : (keptBy fails slist).Sublist slist := by
  induction slist using handedBy.induct fails with
  | case1 => exact .slnil
  | case2 s =>
    rw [keptBy]
    split
    · exact List.nil_sublist _
    · exact .refl _
  | case3 s r rest bad ih =>
    rw [keptBy, if_pos bad]
    exact .cons s (.cons_cons r ih)
  | case4 s r rest good ih =>
    rw [keptBy, if_neg good]
    exact .cons_cons s ih

/-- **A session whose write fails does not stay in the list.** -/
theorem not_mem_keptBy {slist : List Nat} (nodup : slist.Nodup) {x : Nat}
    (handed : x ∈ handedBy fails slist) (bad : fails x = true) : x ∉ keptBy fails slist := by
  induction slist using handedBy.induct fails with
  | case1 => cases handed
  | case2 s =>
    cases List.mem_singleton.mp handed
    simp [keptBy, bad]
  | case3 s r rest here ih =>
    obtain ⟨apart, fresh, nodup⟩ : s ∉ r :: rest ∧ r ∉ rest ∧ rest.Nodup := by simpa using nodup
    rw [handedBy, if_pos here] at handed
    rw [keptBy, if_pos here]
    rcases List.mem_cons.mp handed with rfl | later
    · exact fun kept => apart (((keptBy_sublist rest).cons_cons r).subset kept)
    · refine List.not_mem_cons_of_ne_of_not_mem ?_ (ih nodup later)
      rintro rfl
      exact fresh ((handedBy_sublist rest).subset later)
  | case4 s r rest good ih =>
    obtain ⟨apart, nodup⟩ := List.nodup_cons.mp nodup
    rw [handedBy, if_neg good] at handed
    rw [keptBy, if_neg good]
    rcases List.mem_cons.mp handed with rfl | later
    · exact absurd bad good
    · refine List.not_mem_cons_of_ne_of_not_mem ?_ (ih nodup later)
      rintro rfl
      exact apart ((handedBy_sublist _).subset later)

/-- **A pass reaches every session** if no write before the last one fails. -/
theorem handedBy_eq {slist : List Nat} (good : ∀ s ∈ slist.dropLast, fails s = false) :
    handedBy fails slist = slist := by
  induction slist using handedBy.induct fails with
  | case1 => rfl
  | case2 s => rfl
  | case3 s r rest bad ih =>
    rw [good s List.mem_cons_self] at bad
    cases bad
  | case4 s r rest _ ih =>
    rw [handedBy, good s List.mem_cons_self, if_neg Bool.false_ne_true]
    rw [ih fun s' mem => good s' (List.mem_cons_of_mem s mem)]

end OnePass

/-! ### The server -/

/-- The logs a server is made for: its own one is `elog`; `rule` reads a regular expression, `none`
where it is not well formed. -/
structure Setup where
  store : Store
  elog : Nat
  rule : String → Option (String → Bool)

namespace Setup

variable (c : Setup)

/-- The server's own log. -/
def log : Stream := c.store.stream c.elog

/-- **`LogServer::getLogList`**, `none` where it does not return. -/
def getLogList (logname : String) : Option (List Nat) :=
  if logname = "" ∨ logname = "ALL" ∨ logname = c.log.logName then
    if c.log.isAgregator then (c.store.getLogList c.elog).map (List.map ILog.log) else some [c.elog]
  else if c.log.isAgregator then
    match c.rule logname with
    | none => some []
    | some rule => (c.store.getLogListByRule rule c.elog).map (List.map ILog.log)
  else some []

/-- How often the signal of a stream is emitted for a line of a log. -/
def fires (l b : Nat) : Nat := (if b = l then 1 else 0) + (c.store.emit c.store.count l).count b

/-- A log under the server. -/
def Under (l : Nat) : Prop := l = c.elog ∨ c.store.Contains c.elog l

end Setup

/-- **`LogServer`.** -/
structure Server where
  slist : List Nat
  /-- The sessions that are `done`. -/
  ended : List Nat
  sessMaxCount : Nat
  /-- `conn`: the connection to the server's own log. -/
  conn : Bool
  /-- The logs a command has connected the server to. -/
  connected : List Nat
  /-- The logs of the last `LOG_CMD_FILTER`. -/
  filter : Option (List Nat)
deriving DecidableEq, Repr

/-- What happens to the server. -/
inductive ServerEvent
  /-- A client calls `read`. -/
  | read (s : Nat)
  | setMaxSessionCount (num : Nat)
  /-- A command `LOG_CMD_FILTER`. -/
  | filter (logname : String)
  /-- A line of a log; `fails i s`: the write to the session fails when the line is received for the
  `i`-th time. -/
  | line (l : Nat) (fails : Nat → Nat → Bool)

namespace Server

/-- `LogServer::read`, up to the wait. -/
def read (v : Server) (s : Nat) : Server :=
  if v.sessMaxCount ≤ 0 ∨ v.sessMaxCount ≤ v.slist.length then v else { v with slist := v.slist ++ [s] }

/-- `cmdProcessing` of `LOG_CMD_FILTER` with the logs of its name. -/
def cmdProcessing (v : Server) (loglist : List Nat) : Server :=
  { v with conn := false, connected := v.connected ++ loglist, filter := some loglist }

/-- How often the server receives a line of a log. -/
def received (v : Server) (c : Setup) (l : Nat) : Nat :=
  (if v.conn then c.fires l c.elog else 0) + (v.connected.map (c.fires l)).sum

/-- **A line of a log.** -/
def line (v : Server) (c : Setup) (l : Nat) (fails : Nat → Nat → Bool) : Pass :=
  (List.range (v.received c l)).foldl (fun p i => p.logOnEvent (fails i))
    ⟨v.slist, v.ended, 0, [], [], false⟩

/-- The step of an event. -/
def step (c : Setup) (v : Server) : ServerEvent → Option Server
  | .read s => if s ∈ v.slist ∨ s ∈ v.ended then none else some (v.read s)
  | .setMaxSessionCount num => some { v with sessMaxCount := num }
  | .filter logname => (c.getLogList logname).map v.cmdProcessing
  | .line l fails =>
    let p := v.line c l fails
    some { v with slist := p.slist, ended := p.ended }

/-- The log is selected by the last filter, or there was none. -/
def Selected (v : Server) (c : Setup) (l : Nat) : Prop :=
  match v.filter with
  | none => c.Under l
  | some loglist => l ∈ loglist

end Server

/-- **The server as a machine.** -/
def serverMachine (c : Setup) : Lib.Machine Server ServerEvent where
  start := fun v => v.slist = [] ∧ v.ended = [] ∧ v.conn = true ∧ v.connected = [] ∧ v.filter = none
  step := Server.step c

/-- **A line of a selected log is handed to every open session exactly once**, any other to none; a
session whose write fails is ended and removed, and the iterator stays in the list. -/
def Delivers (c : Setup) (v : Server) : ServerEvent → Prop
  | .line l fails =>
    let p := v.line c l fails
    (∀ s, v.Selected c l ∧ s ∈ v.slist → p.handed.count s = 1) ∧
      (∀ s, ¬ (v.Selected c l ∧ s ∈ v.slist) → p.handed.count s = 0) ∧
      (∀ s ∈ p.failed, s ∈ p.ended ∧ s ∉ p.slist) ∧ p.left = false
  | _ => True

/-- No write fails but that to the last of several sessions. -/
def Stays (slist : List Nat) (fails : Nat → Bool) : Prop :=
  (∀ s ∈ slist.dropLast, fails s = false) ∧ ∀ s, slist = [s] → fails s = false

/-- **The condition**: no session is open, or the line is received once if its log is selected and not
at all otherwise, and the writes go well. -/
def Fine (c : Setup) (v : Server) : ServerEvent → Prop
  | .line l fails => v.slist = [] ∨ (¬ v.Selected c l ∧ v.received c l = 0) ∨
      (v.Selected c l ∧ v.received c l = 1 ∧ Stays v.slist (fails 0))
  | _ => True

/-! ### Lines -/

theorem turn_sublist {fails : Nat → Bool} {p q : Pass} (turned : p.turn fails = some q) :
    q.slist.Sublist p.slist := by
  unfold Pass.turn at turned
  split at turned
  · cases turned
  · obtain ⟨s, -, rfl⟩ := Option.map_eq_some_iff.mp turned
    dsimp only
    split
    · unfold Pass.erase Pass.term
      dsimp only
      split
      · split
        · exact List.eraseIdx_sublist ..
        · exact List.eraseIdx_sublist ..
      · exact List.eraseIdx_sublist ..
    · exact .refl _

theorem logOnEvent_sublist (p : Pass) (fails : Nat → Bool) :
    (p.logOnEvent fails).slist.Sublist p.slist := by
  have keeps : ∀ q r : Pass, q.slist.Sublist p.slist → q.turn fails = some r →
      r.slist.Sublist p.slist := fun q r held turned => (turn_sublist turned).trans held
  exact Lib.loop_keeps keeps _ (List.Sublist.refl _)

/-- **One reception of a line** by sessions that do not make the iterator leave. -/
theorem logOnEvent_spec (p : Pass) {fails : Nat → Bool} (inside : p.left = false)
    (stays : ¬ Leaves fails p.slist) : ∃ it, p.logOnEvent fails =
      ⟨keptBy fails p.slist, p.ended ++ (handedBy fails p.slist).filter fails, it,
        p.handed ++ handedBy fails p.slist, p.failed ++ (handedBy fails p.slist).filter fails,
        false⟩ := by
  obtain ⟨it, looped⟩ :=
    loop_pass fails p.slist [] p.ended p.handed p.failed _ (Nat.le_refl _) fun _ => stays
  refine ⟨it, ?_⟩
  unfold Pass.logOnEvent
  rw [← inside] at looped ⊢
  exact looped

section OneLine

variable {c : Setup} {v : Server} {l : Nat} {fails : Nat → Nat → Bool}

theorem line_nil (l : Nat) (fails : Nat → Nat → Bool) (empty : v.slist = []) :
    (v.line c l fails).handed = [] ∧ (v.line c l fails).failed = [] ∧
      (v.line c l fails).left = false := by
  unfold Server.line
  rw [empty]
  suffices ∀ (is : List Nat) (it : Nat), ∃ it',
      is.foldl (fun p i => Pass.logOnEvent p (fails i)) ⟨[], v.ended, it, [], [], false⟩ =
        ⟨[], v.ended, it', [], [], false⟩ by
    obtain ⟨it', eq⟩ := this (List.range (v.received c l)) 0
    rw [eq]
    exact ⟨rfl, rfl, rfl⟩
  intro is
  induction is with
  | nil => exact fun it => ⟨it, rfl⟩
  | cons i is ih => exact fun _ => ih 0

theorem line_zero (none : v.received c l = 0) :
    v.line c l fails = ⟨v.slist, v.ended, 0, [], [], false⟩ := by
  unfold Server.line
  rw [none]
  rfl

theorem line_one (once : v.received c l = 1) :
    v.line c l fails = Pass.logOnEvent ⟨v.slist, v.ended, 0, [], [], false⟩ (fails 0) := by
  unfold Server.line
  rw [once]
  rfl

theorem line_sublist : (v.line c l fails).slist.Sublist v.slist := by
  unfold Server.line
  suffices ∀ (is : List Nat) (p : Pass),
      (is.foldl (fun p i => Pass.logOnEvent p (fails i)) p).slist.Sublist p.slist from
    this _ ⟨v.slist, v.ended, 0, [], [], false⟩
  intro is
  induction is with
  | nil => exact fun p => .refl _
  | cons i is ih => exact fun p => (ih _).trans (logOnEvent_sublist p (fails i))

theorem delivers_of_fine (nodup : v.slist.Nodup) (fine : Fine c v (.line l fails)) :
    Delivers c v (.line l fails) := by
  show _ ∧ _ ∧ _ ∧ _
  rcases fine with empty | ⟨unselected, none⟩ | ⟨selected, once, good, single⟩
  · obtain ⟨handed, failed, left⟩ := line_nil (c := c) l fails empty
    rw [handed, failed, left]
    refine ⟨fun s mem => ?_, fun _ _ => rfl, fun s (mem : s ∈ []) => (nomatch mem), rfl⟩
    rw [empty] at mem
    exact nomatch mem.2
  · rw [line_zero none]
    exact ⟨fun s mem => absurd mem.1 unselected, fun _ _ => rfl, fun s (mem : s ∈ []) => (nomatch mem), rfl⟩
  · have stays : ¬ Leaves (fails 0) v.slist := by
      rintro ⟨s, only, bad⟩
      rw [single s only] at bad
      cases bad
    obtain ⟨it, spec⟩ := logOnEvent_spec ⟨v.slist, v.ended, 0, [], [], false⟩ rfl stays
    rw [line_one once, spec]
    dsimp only
    rw [handedBy_eq good]
    refine ⟨fun s mem => ?_, fun s mem => ?_, fun s mem => ⟨?_, ?_⟩, rfl⟩
    · exact List.count_eq_one_of_mem nodup mem.2
    · exact List.count_eq_zero.mpr fun open_ => mem ⟨selected, open_⟩
    · exact List.mem_append_right _ mem
    · obtain ⟨open_, bad⟩ := List.mem_filter.mp mem
      exact not_mem_keptBy nodup ((handedBy_eq good).symm ▸ open_) bad

end OneLine

/-! ### Runs -/

/-- The sessions of the list are different ones. -/
theorem nodup_step {c : Setup} {v w : Server} {e : ServerEvent} (nodup : v.slist.Nodup)
    (stepped : (serverMachine c).step v e = some w) : w.slist.Nodup := by
  have stepped : v.step c e = some w := stepped
  unfold Server.step at stepped
  cases e with
  | read s =>
    dsimp only at stepped
    split at stepped
    · cases stepped
    · next new =>
      cases stepped
      unfold Server.read
      split
      · exact nodup
      · exact List.Nodup.append nodup (List.nodup_singleton s)
          (List.disjoint_singleton.mpr fun old => new (Or.inl old))
  | setMaxSessionCount num =>
    cases stepped
    exact nodup
  | filter logname =>
    obtain ⟨loglist, -, rfl⟩ := Option.map_eq_some_iff.mp stepped
    exact nodup
  | line l fails =>
    cases stepped
    exact nodup.sublist line_sublist

/-- **In every run whose lines are fine, every line is delivered**: to each open session once if its log
is selected, else to none. -/
theorem sessions_served {c : Setup} {v : Server} (start : (serverMachine c).start v)
    {events : List ServerEvent} (fine : (serverMachine c).Meets (Fine c) v events) :
    (serverMachine c).Meets (Delivers c) v events := by
  refine Lib.Machine.meets_of_invariant (P := fun v => v.slist.Nodup)
    (fun v e w nodup _ stepped => nodup_step nodup stepped) (fun v e nodup fine => ?_) ?_ fine
  · cases e with
    | line l fails => exact delivers_of_fine nodup fine
    | read _ => exact trivial
    | setMaxSessionCount _ => exact trivial
    | filter _ => exact trivial
  · rw [start.1]
    exact List.nodup_nil

/-! ### Three sessions and one log -/

/-- A server for a plain log. -/
def plain : Setup := ⟨⟨1, fun _ => ⟨"log", false, [], [], []⟩⟩, 0, fun _ => none⟩

/-- The server before the first session. -/
def Server.initial : Server := ⟨[], [], 10, true, [], none⟩

theorem initial_start : (serverMachine plain).start Server.initial := ⟨rfl, rfl, rfl, rfl, rfl⟩

/-- Three sessions; the write to the last one fails. -/
def lastFails : List ServerEvent :=
  [.read 1, .read 2, .read 3, .filter "ALL", .line 0 fun _ s => s == 3, .line 0 fun _ _ => false]

theorem lastFails_served : (serverMachine plain).Meets (Delivers plain) Server.initial lastFails := by
  refine sessions_served initial_start ?_
  refine ⟨trivial, ?_⟩
  rintro _ ⟨⟩
  refine ⟨trivial, ?_⟩
  rintro _ ⟨⟩
  refine ⟨trivial, ?_⟩
  rintro _ ⟨⟩
  refine ⟨trivial, ?_⟩
  rintro _ ⟨⟩
  refine ⟨Or.inr (Or.inr ⟨List.mem_singleton_self 0, rfl, by decide, nofun⟩), ?_⟩
  rintro _ ⟨⟩
  exact ⟨Or.inr (Or.inr ⟨List.mem_singleton_self 0, rfl, by decide, nofun⟩),
    fun _ _ => trivial⟩

/-- The write to the first of two sessions fails: the second one does not get the line. -/
theorem second_missed : ¬ ∀ (c : Setup) (v : Server) (events : List ServerEvent),
    (serverMachine c).start v → (serverMachine c).Meets (Delivers c) v events := by
  intro holds
  have run := holds plain Server.initial [.read 1, .read 2, .line 0 fun _ s => s == 1] initial_start
  have law := ((run.2 _ rfl).2 _ rfl).1
  have once := law.1 2 ⟨Or.inl rfl, by decide⟩
  revert once
  decide

end UniSet.Log
