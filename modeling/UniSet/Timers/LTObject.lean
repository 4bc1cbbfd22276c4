/-
**The timers of an object: `LT_Object`.**

* `TimerInfo` — a timer that is ordered: the real timer `tmr`, and beside it `curTimeMS`, the time
  that was left of it at the last check.
* `askTimer`, `checkTimers` — the two calls. Each returns the `sleepTime` it leaves and reads the
  clock as if at one instant (`now`, in nanoseconds). `checkTimers` also pushes messages.
* `scan` — the loop of `checkTimers`. `turn` is what it does to one timer: `scan_tlst`, `scan_sent`.
* `timer` — the timer of one identifier, and what a call does to it.
* `Kept` — what holds after every call of a run: one timer for each identifier, and none that was
  due already at the last scan (`Kept.run`).
* `ticks` — the ticks alone are the object of `UniSet.LTObject`, with a `fire` for each message.
-/

import Mathlib.Algebra.Order.Group.Unbundled.Int
import Mathlib.Data.List.Nodup
import UniSet.Processes.Sensor
import UniSet.Timers

namespace UniSet.Timers

open UniSet.Processes (Priority)

variable {Id : Type}

/-! ### A timer -/

/-- **`TimerMessage`.** -/
structure TimerMessage (Id : Type) where
  id : Id
  intervalMsec : Int
  priority : Priority
deriving DecidableEq, Repr

/-- **`TimerInfo`.** -/
structure TimerInfo (Id : Type) where
  id : Id
  curTimeMS : Int
  priority : Priority
  curTick : Int
  tmr : PassiveTimer
deriving DecidableEq, Repr

variable {ti : TimerInfo Id}

namespace TimerInfo

/-- A timer for `cnt` notifications. -/
def new (now : Nat) (id : Id) (timeMS cnt : Int) (p : Priority) : TimerInfo Id where
  id := id
  curTimeMS := timeMS
  priority := p
  curTick := cnt - 1
  tmr := .setTiming now timeMS

def reset (ti : TimerInfo Id) (now : Nat) : TimerInfo Id :=
  { ti with curTimeMS := ti.tmr.getInterval, tmr := ti.tmr.reset now }

/-- The order of a timer that is in the list already. -/
def reorder (ti : TimerInfo Id) (now : Nat) (timeMS ticks : Int) : TimerInfo Id :=
  { ti with curTick := ticks, tmr := .setTiming now timeMS }

def message (ti : TimerInfo Id) : TimerMessage Id := ⟨ti.id, ti.tmr.getInterval, ti.priority⟩

/-- What a scan does to a timer, `none` for one that is erased. -/
def turn (now : Nat) (tmLast : PassiveTimer) (ti : TimerInfo Id) : Option (TimerInfo Id) :=
  if ti.tmr.checkTime now then
    if ti.curTick = 0 then none
    else some (({ ti with
      curTick := if 0 < ti.curTick then ti.curTick - 1 else ti.curTick } : TimerInfo Id).reset now)
  else some { ti with curTimeMS := tmLast.getLeft now ti.curTimeMS }

variable {tmLast : PassiveTimer}

theorem turn_id {now : Nat} {left : TimerInfo Id} (turned : ti.turn now tmLast = some left) :
    left.id = ti.id := by
  unfold turn at turned
  split_ifs at turned <;> cases turned <;> rfl

/-- A timer goes on with a new start, or as it was. -/
theorem turn_tmr {now : Nat} {left : TimerInfo Id} (turned : ti.turn now tmLast = some left) :
    left.tmr = if ti.tmr.checkTime now then ti.tmr.reset now else ti.tmr := by
  unfold turn at turned
  split_ifs at turned ⊢ <;> cases turned <;> rfl

/-- The time left is the whole interval, or goes down by the time since the last scan. -/
theorem turn_curTimeMS {now : Nat} {left : TimerInfo Id} (turned : ti.turn now tmLast = some left) :
    left.curTimeMS =
      if ti.tmr.checkTime now then ti.tmr.getInterval else tmLast.getLeft now ti.curTimeMS := by
  unfold turn at turned
  split_ifs at turned ⊢ <;> cases turned <;> rfl

/-- A timer of zero ticks is erased; a positive count goes down. -/
theorem curTick_turn {now : Nat} (tmLast : PassiveTimer) (due : ti.tmr.checkTime now = true) :
    (ti.turn now tmLast).map (·.curTick) =
      if ti.curTick = 0 then none
      else if 0 < ti.curTick then some (ti.curTick - 1) else some ti.curTick := by
  unfold turn
  rw [if_pos due]
  split_ifs <;> simp_all [reset]

end TimerInfo

/-! ### The loop of `checkTimers` -/

/-- The state of the loop of `checkTimers`: the timers behind the iterator that are kept, and the
messages pushed. -/
structure Scan (Id : Type) where
  sleepTime : Int
  tlst : List (TimerInfo Id)
  sent : List (TimerMessage Id)

/-- The least time left so far. -/
def least (sleepTime curTimeMS : Int) : Int :=
  if curTimeMS < sleepTime ∨ sleepTime = waitUpTime then curTimeMS else sleepTime

/-- The loop of `checkTimers`. -/
def scan (now : Nat) (tmLast : PassiveTimer) : List (TimerInfo Id) → Scan Id → Scan Id
  | [], s => s
  | li :: rest, s =>
    if li.tmr.checkTime now then
      let sent := s.sent ++ [li.message]
      if li.curTick = 0 then
        -- the list is empty after the erasure: no timer before this one nor after it
        scan now tmLast rest { s with
          sent := sent
          sleepTime := if s.tlst.isEmpty && rest.isEmpty then waitUpTime else s.sleepTime }
      else
        let li := { li with curTick := if 0 < li.curTick then li.curTick - 1 else li.curTick }
        let li := li.reset now
        scan now tmLast rest ⟨least s.sleepTime li.curTimeMS, s.tlst ++ [li], sent⟩
    else
      let li := { li with curTimeMS := tmLast.getLeft now li.curTimeMS }
      scan now tmLast rest ⟨least s.sleepTime li.curTimeMS, s.tlst ++ [li], s.sent⟩

section Scan

variable {now : Nat} {tmLast : PassiveTimer}

theorem scan_tlst (l : List (TimerInfo Id)) (s : Scan Id) :
    (scan now tmLast l s).tlst = s.tlst ++ l.filterMap (·.turn now tmLast) := by
  induction l generalizing s with
  | nil => simp [scan]
  | cons li rest ih =>
    rw [scan]
    by_cases due : li.tmr.checkTime now
    · by_cases last : li.curTick = 0
      · rw [if_pos due, if_pos last, ih, List.filterMap_cons]
        simp [TimerInfo.turn, due, last]
      · rw [if_pos due, if_neg last, ih, List.filterMap_cons]
        simp [TimerInfo.turn, due, last]
    · rw [if_neg due, ih, List.filterMap_cons]
      simp [TimerInfo.turn, due]

theorem map_id_turn_sublist (l : List (TimerInfo Id)) :
    ((l.filterMap (·.turn now tmLast)).map (·.id)).Sublist (l.map (·.id)) := by
  induction l with
  | nil => exact List.Sublist.refl _
  | cons li rest ih =>
    rw [List.filterMap_cons]
    cases turned : li.turn now tmLast with
    | none => exact ih.cons _
    | some left =>
      rw [List.map_cons, List.map_cons, TimerInfo.turn_id turned]
      exact ih.cons_cons _

theorem scan_sent (l : List (TimerInfo Id)) (s : Scan Id) :
    (scan now tmLast l s).sent =
      s.sent ++ (l.filter (·.tmr.checkTime now)).map TimerInfo.message := by
  induction l generalizing s with
  | nil => simp [scan]
  | cons li rest ih =>
    rw [scan]
    by_cases due : li.tmr.checkTime now
    · by_cases last : li.curTick = 0
      · rw [if_pos due, if_pos last, ih, List.filter_cons_of_pos (by exact due)]
        simp
      · rw [if_pos due, if_neg last, ih, List.filter_cons_of_pos (by exact due)]
        simp
    · rw [if_neg due, ih, List.filter_cons_of_neg (by exact due)]

end Scan

/-! ### The calls -/

/-- **A call**, with the instant at which it is made. -/
inductive Event (Id : Type)
  | askTimer (now : Nat) (timerid : Id) (timeMS ticks : Int64) (p : Priority)
  | checkTimers (now : Nat)
deriving DecidableEq

def Event.now : Event Id → Nat
  | .askTimer now .. => now
  | .checkTimers now => now

/-- The calls are made one after the other, from an instant on. -/
def InOrder (since : Nat) (es : List (Event Id)) : Prop :=
  (since :: es.map Event.now).IsChain (· ≤ ·)

instance (since : Nat) (es : List (Event Id)) : Decidable (InOrder since es) :=
  inferInstanceAs (Decidable (List.IsChain _ _))

@[simp] theorem inOrder_nil (since : Nat) : InOrder since ([] : List (Event Id)) := by
  simp [InOrder]

@[simp] theorem inOrder_cons {since : Nat} {e : Event Id} {es : List (Event Id)} :
    InOrder since (e :: es) ↔ since ≤ e.now ∧ InOrder e.now es := by
  simp [InOrder]

/-- **`LT_Object`.** -/
structure LTObject (Id : Type) where
  sleepTime : Int
  tlst : List (TimerInfo Id)
  tmLast : PassiveTimer
deriving DecidableEq, Repr

namespace LTObject

/-- An object without timers. -/
def new (now : Nat) : LTObject Id := ⟨waitUpTime, [], .setTiming now waitUpTime⟩

/-- The protection from a continuous stream of messages: a check within `MinQuantityTime` of the
last scan with less than that left to sleep. -/
def Guarded (lt : LTObject Id) (now : Nat) : Prop :=
  lt.tmLast.getCurrent now < minQuantityTime ∧
    lt.tmLast.getLeft now lt.sleepTime < minQuantityTime

instance (lt : LTObject Id) (now : Nat) : Decidable (lt.Guarded now) :=
  inferInstanceAs (Decidable (_ ∧ _))

def checkTimers (lt : LTObject Id) (now : Nat) : LTObject Id × List (TimerMessage Id) :=
  if lt.tlst.isEmpty then ({ lt with sleepTime := waitUpTime }, [])
  else if lt.Guarded now then ({ lt with sleepTime := minQuantityTime }, [])
  else
    let s := scan now lt.tmLast lt.tlst ⟨waitUpTime, [], []⟩
    let sleepTime := if s.sleepTime < minQuantityTime then minQuantityTime else s.sleepTime
    (⟨sleepTime, s.tlst, lt.tmLast.reset now⟩, s.sent)

variable {lt : LTObject Id} {now : Nat}

/-- The list after a check and the messages it pushes. -/
theorem checkTimers_scan (free : ¬ lt.Guarded now) :
    (lt.checkTimers now).1.tlst = lt.tlst.filterMap (·.turn now lt.tmLast) ∧
      (lt.checkTimers now).2 =
        (lt.tlst.filter (·.tmr.checkTime now)).map TimerInfo.message := by
  unfold checkTimers
  split_ifs with empty
  · rw [List.isEmpty_iff] at empty
    simp [empty]
  · exact ⟨scan_tlst _ _, scan_sent _ _⟩

theorem checkTimers_guarded (guarded : lt.Guarded now) :
    (lt.checkTimers now).1.tlst = lt.tlst ∧ (lt.checkTimers now).2 = [] := by
  unfold checkTimers
  split_ifs <;> exact ⟨rfl, rfl⟩

end LTObject

/-- The time of an order, raised to the least that is allowed. -/
def allowed (timeMS : Int64) : Int :=
  if timeMS.toInt < minQuantityTime then minQuantityTime else timeMS.toInt

theorem minQuantityTime_le_allowed (timeMS : Int64) : minQuantityTime ≤ allowed timeMS := by
  unfold allowed
  split_ifs with less
  · exact Int.le_refl _
  · exact Int.not_lt.mp less

variable [DecidableEq Id]

/-- The search of `askTimer` for a timer that is in the list already. -/
def reorderFirst (now : Nat) (timerid : Id) (timeMS ticks : Int) :
    List (TimerInfo Id) → Option (List (TimerInfo Id))
  | [] => none
  | li :: rest =>
    if li.id = timerid then some (li.reorder now timeMS ticks :: rest)
    else (reorderFirst now timerid timeMS ticks rest).map (li :: ·)

namespace LTObject

def askTimer (lt : LTObject Id) (now : Nat) (timerid : Id) (timeMS ticks : Int64) (p : Priority) :
    LTObject Id :=
  if 0 < timeMS.toInt then
    match reorderFirst now timerid (allowed timeMS) ticks.toInt lt.tlst with
    | some tlst => { lt with tlst := tlst }
    | none =>
      { lt with
        tlst := lt.tlst ++ [.new now timerid (allowed timeMS) ticks.toInt p]
        sleepTime := minQuantityTime }
  else
    let tlst := lt.tlst.filter (·.id ≠ timerid)
    { lt with tlst := tlst, sleepTime := if tlst.isEmpty then waitUpTime else minQuantityTime }

/-- The first timer of the list with an identifier. -/
def timer (lt : LTObject Id) (timerid : Id) : Option (TimerInfo Id) :=
  lt.tlst.find? (·.id = timerid)

end LTObject

/-! ### Runs -/

namespace LTObject

def step (lt : LTObject Id) : Event Id → LTObject Id × List (TimerMessage Id)
  | .askTimer now timerid timeMS ticks p => (lt.askTimer now timerid timeMS ticks p, [])
  | .checkTimers now => lt.checkTimers now

/-- The object after the calls and the messages they push. -/
def run (lt : LTObject Id) : List (Event Id) → LTObject Id × List (TimerMessage Id)
  | [] => (lt, [])
  | e :: es => (((lt.step e).1.run es).1, (lt.step e).2 ++ ((lt.step e).1.run es).2)

end LTObject

/-! ### What the calls do -/

/-- How many of the messages are of a timer. -/
def pushed (timerid : Id) (sent : List (TimerMessage Id)) : Nat := sent.countP (·.id = timerid)

@[simp] theorem pushed_nil (timerid : Id) : pushed timerid [] = 0 := rfl

@[simp] theorem pushed_append (timerid : Id) (sent more : List (TimerMessage Id)) :
    pushed timerid (sent ++ more) = pushed timerid sent + pushed timerid more :=
  List.countP_append

section Reorder

variable {now : Nat} {timerid : Id} {timeMS ticks : Int}

variable {l l' : List (TimerInfo Id)}

theorem reorderFirst_eq_none :
    reorderFirst now timerid timeMS ticks l = none ↔ ∀ li ∈ l, li.id ≠ timerid := by
  induction l with
  | nil => simp [reorderFirst]
  | cons li rest ih =>
    rw [reorderFirst]
    by_cases same : li.id = timerid
    · simp [same]
    · simp [same, ih]

theorem map_id_reorderFirst (found : reorderFirst now timerid timeMS ticks l = some l') :
    l'.map (·.id) = l.map (·.id) := by
  induction l generalizing l' with
  | nil => cases found
  | cons li rest ih =>
    rw [reorderFirst] at found
    split_ifs at found with same
    · cases found
      rfl
    · obtain ⟨rest', tail, rfl⟩ := Option.map_eq_some_iff.mp found
      rw [List.map_cons, List.map_cons, ih tail]

theorem mem_reorderFirst (found : reorderFirst now timerid timeMS ticks l = some l')
    (mem : ti ∈ l') :
    ti ∈ l ∨ ∃ li ∈ l, li.id = timerid ∧ ti = li.reorder now timeMS ticks := by
  induction l generalizing l' with
  | nil => cases found
  | cons li rest ih =>
    rw [reorderFirst] at found
    split_ifs at found with same
    · cases found
      rcases List.mem_cons.mp mem with rfl | mem
      · exact .inr ⟨li, List.mem_cons_self, same, rfl⟩
      · exact .inl (List.mem_cons_of_mem _ mem)
    · obtain ⟨rest', tail, rfl⟩ := Option.map_eq_some_iff.mp found
      rcases List.mem_cons.mp mem with rfl | mem
      · exact .inl List.mem_cons_self
      · rcases ih tail mem with mem | ⟨old, mem, found⟩
        · exact .inl (List.mem_cons_of_mem _ mem)
        · exact .inr ⟨old, List.mem_cons_of_mem _ mem, found⟩

/-- The first timer of the list is the one that is ordered again. -/
theorem find?_reorderFirst (other : Id)
    (found : reorderFirst now timerid timeMS ticks l = some l') :
    l'.find? (·.id = other) =
      if other = timerid then (l.find? (·.id = other)).map (·.reorder now timeMS ticks)
      else l.find? (·.id = other) := by
  induction l generalizing l' with
  | nil => cases found
  | cons li rest ih =>
    rw [reorderFirst] at found
    split_ifs at found with same
    · cases found
      by_cases eq : other = timerid
      · simp [eq, same, TimerInfo.reorder]
      · have ne : ¬ li.id = other := fun h => eq (h.symm.trans same)
        simp [eq, ne, TimerInfo.reorder]
    · obtain ⟨rest', tail, rfl⟩ := Option.map_eq_some_iff.mp found
      by_cases here : li.id = other
      · have ne : other ≠ timerid := fun h => same (here.trans h)
        simp [here, ne]
      · simp only [List.find?_cons, here, decide_false]
        exact ih tail

end Reorder

section Turn

variable {now : Nat} {tmLast : PassiveTimer} {l : List (TimerInfo Id)}

theorem find?_filterMap_turn (timerid : Id) (nodup : (l.map (·.id)).Nodup) :
    (l.filterMap (·.turn now tmLast)).find? (·.id = timerid) =
      (l.find? (·.id = timerid)).bind (·.turn now tmLast) := by
  induction l with
  | nil => rfl
  | cons li rest ih =>
    obtain ⟨alone, nodup⟩ := List.nodup_cons.mp nodup
    rw [List.filterMap_cons]
    by_cases here : li.id = timerid
    · rw [List.find?_cons_of_pos (by simp [here]), Option.bind_some]
      cases turned : li.turn now tmLast with
      | some left => simp [TimerInfo.turn_id turned, here]
      | none =>
        rw [List.find?_eq_none]
        intro ti mem same
        obtain ⟨old, mem, turned⟩ := List.mem_filterMap.mp mem
        rw [TimerInfo.turn_id turned] at same
        exact alone (List.mem_map.mpr ⟨old, mem, (of_decide_eq_true same).trans here.symm⟩)
    · rw [List.find?_cons_of_neg (by simp [here]), ← ih nodup]
      cases turned : li.turn now tmLast with
      | none => rfl
      | some left => simp [TimerInfo.turn_id turned, here]

theorem pushed_messages (timerid : Id) (nodup : (l.map (·.id)).Nodup) :
    pushed timerid ((l.filter (·.tmr.checkTime now)).map TimerInfo.message) =
      if (l.find? (·.id = timerid)).any (·.tmr.checkTime now) then 1 else 0 := by
  have count : pushed timerid ((l.filter (·.tmr.checkTime now)).map TimerInfo.message) =
      (l.filter (·.id = timerid)).countP (·.tmr.checkTime now) := by
    rw [pushed, List.countP_map, List.countP_filter, List.countP_filter]
    refine List.countP_congr fun ti _ => ?_
    show (decide (ti.id = timerid) && _) = true ↔ (_ && decide (ti.id = timerid)) = true
    rw [Bool.and_comm]
  rw [count]
  clear count
  induction l with
  | nil => rfl
  | cons li rest ih =>
    obtain ⟨alone, nodup⟩ := List.nodup_cons.mp nodup
    by_cases here : li.id = timerid
    · have none : rest.filter (·.id = timerid) = [] := by
        rw [List.filter_eq_nil_iff]
        intro ti mem same
        exact alone (List.mem_map.mpr ⟨ti, mem, (of_decide_eq_true same).trans here.symm⟩)
      by_cases due : li.tmr.checkTime now <;> simp [here, none, due]
    · rw [List.filter_cons_of_neg (by simp [here]), List.find?_cons_of_neg (by simp [here])]
      exact ih nodup

end Turn

namespace LTObject

variable {lt : LTObject Id} {now : Nat} {timerid other : Id}

/-- A check pushes a message of the timer. -/
def Fires (lt : LTObject Id) (now : Nat) (timerid : Id) : Prop :=
  ¬ lt.Guarded now ∧ (lt.timer timerid).any (·.tmr.checkTime now) = true

instance (lt : LTObject Id) (now : Nat) (timerid : Id) : Decidable (lt.Fires now timerid) :=
  inferInstanceAs (Decidable (_ ∧ _))

theorem Fires.timer (fires : lt.Fires now timerid) : ∃ ti, lt.timer timerid = some ti := by
  obtain ⟨ti, here, -⟩ := (Option.any_eq_true _ _).mp fires.2
  exact ⟨ti, here⟩

theorem timer_eq_none : lt.timer timerid = none ↔ ∀ ti ∈ lt.tlst, ti.id ≠ timerid := by
  simp [timer]

variable {timeMS : Int64} {p : Priority}

theorem timer_askTimer_other {ticks : Int64} (ne : other ≠ timerid) :
    (lt.askTimer now timerid timeMS ticks p).timer other = lt.timer other := by
  unfold askTimer
  split_ifs with asked
  · cases found : reorderFirst now timerid (allowed timeMS) ticks.toInt lt.tlst with
    | some tlst => exact (find?_reorderFirst other found).trans (if_neg ne)
    | none => simp [timer, TimerInfo.new, ne.symm]
  · show (lt.tlst.filter (·.id ≠ timerid)).find? (·.id = other) = lt.tlst.find? (·.id = other)
    rw [List.find?_filter]
    congr 1
    funext ti
    by_cases here : ti.id = other <;> simp [here, ne]

/-- A timer that is in the list is started again; its ticks are stored as they are ordered. -/
theorem timer_askTimer_found {ticks : Int64} (asked : 0 < timeMS.toInt)
    (here : lt.timer timerid = some ti) :
    (lt.askTimer now timerid timeMS ticks p).timer timerid =
      some (ti.reorder now (allowed timeMS) ticks.toInt) := by
  unfold askTimer
  rw [if_pos asked]
  cases found : reorderFirst now timerid (allowed timeMS) ticks.toInt lt.tlst with
  | some tlst =>
    refine (find?_reorderFirst timerid found).trans ?_
    rw [if_pos rfl]
    exact congrArg (Option.map _) here
  | none =>
    rw [timer_eq_none.mpr (reorderFirst_eq_none.mp found)] at here
    cases here

theorem timer_askTimer_new {ticks : Int64} (asked : 0 < timeMS.toInt)
    (none : lt.timer timerid = none) :
    (lt.askTimer now timerid timeMS ticks p).timer timerid =
      some (.new now timerid (allowed timeMS) ticks.toInt p) := by
  have absent := timer_eq_none.mp none
  unfold askTimer
  rw [if_pos asked, reorderFirst_eq_none.mpr absent]
  show (lt.tlst ++ [_]).find? _ = _
  rw [List.find?_append, show lt.tlst.find? _ = _ from none]
  simp [TimerInfo.new]

theorem timer_askTimer_cancel {ticks : Int64} (cancel : ¬ 0 < timeMS.toInt) :
    (lt.askTimer now timerid timeMS ticks p).timer timerid = none := by
  unfold askTimer
  rw [if_neg cancel, timer_eq_none]
  intro ti mem
  exact of_decide_eq_true (List.mem_filter.mp mem).2

/-- A check that pushes a message of a timer pushes one, and the timer goes on or is erased. -/
theorem checkTimers_of_fires (nodup : (lt.tlst.map (·.id)).Nodup)
    (here : lt.timer timerid = some ti) (fires : lt.Fires now timerid) :
    ti.tmr.checkTime now = true ∧ pushed timerid (lt.checkTimers now).2 = 1 ∧
      (lt.checkTimers now).1.timer timerid = ti.turn now lt.tmLast := by
  obtain ⟨free, due⟩ := fires
  obtain ⟨tlst, sent⟩ := checkTimers_scan free
  refine ⟨by simpa [here] using due, ?_, ?_⟩
  · rw [sent, pushed_messages timerid nodup]
    exact if_pos due
  · unfold timer
    rw [tlst, find?_filterMap_turn timerid nodup]
    exact congrArg (Option.bind · _) here

/-- Else the timer stays, with the time that is left of it. -/
theorem checkTimers_of_not_fires (nodup : (lt.tlst.map (·.id)).Nodup)
    (quiet : ¬ lt.Fires now timerid) :
    pushed timerid (lt.checkTimers now).2 = 0 ∧
      ∃ left : TimerInfo Id → Int, (lt.checkTimers now).1.timer timerid =
        (lt.timer timerid).map fun ti => { ti with curTimeMS := left ti } := by
  by_cases guarded : lt.Guarded now
  · obtain ⟨tlst, sent⟩ := checkTimers_guarded guarded
    refine ⟨by rw [sent, pushed_nil], fun ti => ti.curTimeMS, ?_⟩
    unfold timer
    rw [tlst]
    exact Option.map_id'.symm
  · have waiting : ¬ (lt.timer timerid).any (·.tmr.checkTime now) = true :=
      fun due => quiet ⟨guarded, due⟩
    obtain ⟨tlst, sent⟩ := checkTimers_scan guarded
    refine ⟨?_, fun ti => lt.tmLast.getLeft now ti.curTimeMS, ?_⟩
    · rw [sent, pushed_messages timerid nodup]
      exact if_neg waiting
    · unfold timer at waiting ⊢
      rw [tlst, find?_filterMap_turn timerid nodup]
      cases here : lt.tlst.find? (·.id = timerid) with
      | none => rfl
      | some ti =>
        rw [here] at waiting
        have waiting : ¬ ti.tmr.checkTime now = true := waiting
        simp [TimerInfo.turn, waiting]

/-- The ticks that the timers have left. -/
def ticks (lt : LTObject Id) : UniSet.LTObject Id where
  curTick timerid := (lt.timer timerid).map (·.curTick)

theorem curTick_ticks : lt.ticks.curTick timerid = (lt.timer timerid).map (·.curTick) := rfl

theorem ticks_askTimer (timeMS ticks : Int64) (p : Priority) :
    (lt.askTimer now timerid timeMS ticks p).ticks =
      lt.ticks.askTimer timerid timeMS.toInt.toNat ticks.toInt := by
  show UniSet.LTObject.mk _ = UniSet.LTObject.mk _
  congr 1
  funext other
  show ((lt.askTimer now timerid timeMS ticks p).timer other).map (·.curTick) = _
  by_cases same : other = timerid
  · subst same
    rw [Function.update_self]
    by_cases asked : 0 < timeMS.toInt
    · rw [if_pos (Int.pos_iff_toNat_pos.mp asked)]
      cases here : lt.timer other with
      | none =>
        rw [timer_askTimer_new asked here, curTick_ticks, here]
        rfl
      | some ti =>
        rw [timer_askTimer_found asked here, curTick_ticks, here]
        rfl
    · rw [if_neg fun pos => asked (Int.pos_iff_toNat_pos.mpr pos), timer_askTimer_cancel asked]
      rfl
  · rw [Function.update_of_ne same, timer_askTimer_other same, curTick_ticks]

end LTObject

/-! ### What holds after every call -/

/-- **A timer at least `MinQuantityTime` long, begun by an instant and not over at the last scan.** -/
structure Running (tmr : PassiveTimer) (last since : Nat) : Prop where
  started : tmr.tStart ≤ since
  quantum : minQuantityTime ≤ tmr.tMsec
  waiting : tmr.checkTime last = false

namespace Running

variable {tmr : PassiveTimer} {last since now : Nat}

theorem pos (running : Running tmr last since) : 0 < tmr.tMsec :=
  Int.lt_of_lt_of_le (by decide) running.quantum

theorem later (running : Running tmr last since) (later : since ≤ now) : Running tmr last now :=
  { running with started := Nat.le_trans running.started later }

theorem setTiming (before : last ≤ now) (timeMS : Int64) :
    Running (.setTiming now (allowed timeMS)) last now where
  started := Nat.le_refl _
  quantum := minQuantityTime_le_allowed timeMS
  waiting := PassiveTimer.checkTime_of_le
    (Int.lt_of_lt_of_le (by decide) (minQuantityTime_le_allowed timeMS)) before

theorem turned (running : Running tmr last since) (later : since ≤ now) :
    Running (if tmr.checkTime now then tmr.reset now else tmr) now now := by
  split_ifs with due
  · exact ⟨Nat.le_refl _, running.quantum, PassiveTimer.checkTime_of_le running.pos (Nat.le_refl _)⟩
  · exact ⟨Nat.le_trans running.started later, running.quantum, Bool.eq_false_iff.mpr due⟩

end Running

/-- **One timer for each identifier, every one running.** -/
structure Kept (lt : LTObject Id) (since : Nat) : Prop where
  nodup : (lt.tlst.map (·.id)).Nodup
  last : lt.tmLast.tStart ≤ since
  running : ∀ ti ∈ lt.tlst, Running ti.tmr lt.tmLast.tStart since

namespace Kept

variable {lt : LTObject Id} {since now : Nat}

omit [DecidableEq Id] in
theorem new (now : Nat) : Kept (LTObject.new now : LTObject Id) now where
  nodup := List.nodup_nil
  last := Nat.le_refl _
  running := by simp [LTObject.new]

theorem askTimer (kept : Kept lt since) (later : since ≤ now) (timerid : Id)
    (timeMS ticks : Int64) (p : Priority) :
    Kept (lt.askTimer now timerid timeMS ticks p) now := by
  have last := Nat.le_trans kept.last later
  have old : ∀ ti ∈ lt.tlst, Running ti.tmr lt.tmLast.tStart now :=
    fun ti mem => (kept.running ti mem).later later
  have started := Running.setTiming last timeMS
  unfold LTObject.askTimer
  split_ifs with asked
  · cases found : reorderFirst now timerid (allowed timeMS) ticks.toInt lt.tlst with
    | some tlst =>
      refine ⟨by rw [map_id_reorderFirst found]; exact kept.nodup, last, ?_⟩
      intro ti mem
      rcases mem_reorderFirst found mem with mem | ⟨li, -, -, rfl⟩
      · exact old ti mem
      · exact started
    | none =>
      have absent := reorderFirst_eq_none.mp found
      refine ⟨?_, last, ?_⟩
      · rw [List.map_append, List.nodup_append]
        refine ⟨kept.nodup, List.nodup_singleton _, ?_⟩
        intro a inList b new
        obtain ⟨ti, mem, rfl⟩ := List.mem_map.mp inList
        rw [List.mem_singleton.mp new]
        exact absent ti mem
      · intro ti mem
        rcases List.mem_append.mp mem with mem | mem
        · exact old ti mem
        · rw [List.mem_singleton.mp mem]
          exact started
  · exact ⟨kept.nodup.sublist (List.filter_sublist.map _), last,
      fun ti mem => old ti (List.mem_filter.mp mem).1⟩

omit [DecidableEq Id] in
theorem checkTimers (kept : Kept lt since) (later : since ≤ now) :
    Kept (lt.checkTimers now).1 now := by
  unfold LTObject.checkTimers
  split_ifs with empty guarded
  · exact ⟨kept.nodup, Nat.le_trans kept.last later,
      fun ti mem => (kept.running ti mem).later later⟩
  · exact ⟨kept.nodup, Nat.le_trans kept.last later,
      fun ti mem => (kept.running ti mem).later later⟩
  · have tlst : (scan now lt.tmLast lt.tlst ⟨waitUpTime, [], []⟩).tlst =
        lt.tlst.filterMap (·.turn now lt.tmLast) := scan_tlst _ _
    refine ⟨?_, Nat.le_refl _, ?_⟩
    · show ((scan now lt.tmLast lt.tlst ⟨waitUpTime, [], []⟩).tlst.map (·.id)).Nodup
      rw [tlst]
      exact kept.nodup.sublist (map_id_turn_sublist lt.tlst)
    · intro ti mem
      have mem : ti ∈ (scan now lt.tmLast lt.tlst ⟨waitUpTime, [], []⟩).tlst := mem
      rw [tlst] at mem
      obtain ⟨old, mem, turned⟩ := List.mem_filterMap.mp mem
      rw [TimerInfo.turn_tmr turned]
      exact (kept.running old mem).turned later

theorem step (kept : Kept lt since) {e : Event Id} (later : since ≤ e.now) :
    Kept (lt.step e).1 e.now := by
  cases e with
  | askTimer now timerid timeMS ticks p => exact kept.askTimer later timerid timeMS ticks p
  | checkTimers now => exact kept.checkTimers later

theorem run {es rest : List (Event Id)} (kept : Kept lt since)
    (inOrder : InOrder since (es ++ rest)) :
    ∃ last, Kept (lt.run es).1 last ∧ InOrder last rest := by
  induction es generalizing lt since with
  | nil => exact ⟨since, kept, inOrder⟩
  | cons e es ih =>
    obtain ⟨later, inOrder⟩ := inOrder_cons.mp inOrder
    exact ih (kept.step later) inOrder

end Kept

end UniSet.Timers
