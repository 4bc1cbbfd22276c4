/-
**The elements of a logic schema.**

* `Element` — the elements with the state each of them keeps.
* `setIn`, `tick` — an input gets a value, the time goes on. The answer tells whether the element
  forwards its output to its children.
* `setFirst` — the inputs of an `OR` or `AND` after one of them is set.
-/

import Mathlib.Data.List.Basic
import UniSet.Timers

namespace UniSet.LogicProcessor

/-- **`Element`** and its classes. -/
inductive Element
  | TOR (ins : List (Nat × Int)) (myout initOut : Bool)
  | TAND (ins : List (Nat × Int)) (myout initOut : Bool)
  | TNOT (myout initOut : Bool)
  | TA2D (fvalue : Int) (myout initOut : Bool)
  | TSEL_R (controlInp : Bool) (trueInp falseInp myout : Int) (initOut : Bool)
  | TRS (dominantReset setInp resetInp myout initOut : Bool)
  | TDelay (delay : Int) (pt : PassiveTimer) (myout : Bool)
deriving DecidableEq, Repr

namespace Element

def ofBool (b : Bool) : Int := if b then 1 else 0

/-- The inputs from 1 on, all with one state. -/
def initIns (num : Nat) (st : Bool) : List (Nat × Int) :=
  (List.range num).map fun i => (i + 1, ofBool st)

/-! ### New elements -/

def newTOR (num : Nat) (st : Bool) : Element := .TOR (initIns num st) (decide (num ≠ 0) && st) true

def newTAND (num : Nat) (st : Bool) : Element := .TAND (initIns num st) (decide (num ≠ 0) && st) true

def newTNOT (st : Bool) : Element := .TNOT st true

def newTA2D (filterValue : Int) : Element := .TA2D filterValue false true

def newTSEL_R (st : Bool) (selFalse selTrue : Int) : Element :=
  .TSEL_R st selTrue selFalse (if st then selTrue else selFalse) true

def newTRS (st dominantReset : Bool) : Element := .TRS dominantReset false false st true

/-- The inputs of a delay are not used. -/
def newTDelay (delayMS : Int) : Element := .TDelay delayMS ⟨waitUpTime, 0⟩ false

/-! ### Inputs and outputs -/

/-- `getOut`. -/
def getOut : Element → Int
  | TOR _ myout _ | TAND _ myout _ | TNOT myout _ | TA2D _ myout _ => ofBool myout
  | TSEL_R _ _ _ myout _ => myout
  | TRS _ _ _ myout _ | TDelay _ _ myout => ofBool myout

/-- `init_out`: the output has not been forwarded yet. -/
def initOut : Element → Bool
  | TOR _ _ initOut | TAND _ _ initOut | TNOT _ initOut | TA2D _ _ initOut => initOut
  | TSEL_R _ _ _ _ initOut => initOut
  | TRS _ _ _ _ initOut => initOut
  | TDelay _ _ _ => false

/-- The first input of the number gets the value. -/
def setFirst (num : Nat) (value : Int) : List (Nat × Int) → List (Nat × Int)
  | [] => []
  | it :: ins => if it.1 = num then (num, value) :: ins else it :: setFirst num value ins

/-- The input of `OR` and `AND` has the value already and the output is known: `setIn` returns. -/
def unchanged (ins : List (Nat × Int)) (initOut : Bool) (num : Nat) (value : Int) : Bool :=
  decide (ins.lookup num = some value) && !initOut

/-- **`setIn`** at an instant: the element after it, and whether it calls `setChildOut`. -/
def setIn (now : Nat) (num : Nat) (value : Int) : Element → Element × Bool
  | TOR ins myout initOut =>
    if unchanged ins initOut num value then (TOR ins myout initOut, false)
    else
      let ins := setFirst num value ins
      let out := ins.any fun it => it.2 ≠ 0
      (TOR ins out false, myout ≠ out || initOut)
  | TAND ins myout initOut =>
    if unchanged ins initOut num value then (TAND ins myout initOut, false)
    else
      let ins := setFirst num value ins
      let out := ins.all fun it => it.2 ≠ 0
      (TAND ins out false, myout ≠ out || initOut)
  | TNOT myout initOut =>
    let out := !decide (value ≠ 0)
    (TNOT out false, myout ≠ out || initOut)
  | TA2D fvalue myout initOut =>
    let out := decide (fvalue = value)
    (TA2D fvalue out false, myout ≠ out || initOut)
  | TSEL_R controlInp trueInp falseInp myout initOut =>
    -- the output before is kept in a `bool`
    let prev := ofBool (decide (myout ≠ 0))
    let controlInp := if num = 1 then decide (value ≠ 0) else controlInp
    let trueInp := if num = 2 then value else trueInp
    let falseInp := if num = 3 then value else falseInp
    let out := if controlInp then trueInp else falseInp
    (TSEL_R controlInp trueInp falseInp out false, prev ≠ out || initOut)
  | TRS dominantReset setInp resetInp myout initOut =>
    let setInp := if num = 1 then decide (value ≠ 0) else setInp
    let resetInp := if num = 2 then decide (value ≠ 0) else resetInp
    let out := if dominantReset then (setInp || myout) && !resetInp else setInp || (myout && !resetInp)
    (TRS dominantReset setInp resetInp out false, myout ≠ out || initOut)
  | TDelay delay pt myout =>
    if value = 0 then (TDelay delay (.setTiming now 0) false, myout)
    else if delay ≤ 0 then (TDelay delay (.setTiming now 0) true, !myout)
    else (TDelay delay (if myout then pt else .setTiming now delay) myout, false)

/-- **`tick`**: only a delay does something. -/
def tick (now : Nat) : Element → Element × Bool
  | TDelay delay pt myout =>
    if pt.getInterval ≠ 0 ∧ pt.checkTime now then (TDelay delay (.setTiming now 0) true, true)
    else (TDelay delay pt myout, false)
  | el => (el, false)

end Element

end UniSet.LogicProcessor
