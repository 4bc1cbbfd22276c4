/-
**The functions of the elements, and what one `setIn` does for them.**

* `func` — the value of an element for values of its inputs.
* `Received` — an input has got a value and the element has forwarded its output since it was made.
* `Sound` — the output of an element agrees with the inputs it keeps.
* `Missed` — a call that changes the output of a `SEL_R` to 1 and does not forward it, since the output
  before is compared as a `bool`.
* `setIn_quiet`: a call that is not missed and does not forward leaves the output as it is.
* `getOut_eq_func`: where every input has received its value, the output is the function of them.
-/

import UniSet.LogicProcessor.Element
import Mathlib.Data.List.Nodup

namespace UniSet.LogicProcessor

namespace Element

/-! ### Inputs and functions -/

/-- The numbers of the inputs. -/
def inputs : Element → List Nat
  | TOR ins _ _ | TAND ins _ _ => ins.map Prod.fst
  | TNOT _ _ | TA2D _ _ _ => [1]
  | TSEL_R _ _ _ _ _ => [1, 2, 3]
  | TRS _ _ _ _ _ => [1, 2]
  | TDelay _ _ _ => [1]

/-- The input a call with a number is for: an element with one input ignores the number. -/
def port : Element → Nat → Nat
  | TNOT _ _, _ | TA2D _ _ _, _ | TDelay _ _ _, _ => 1
  | _, num => num

/-- **The function of an element**, for values of its inputs. `RS` and `Delay` have none. -/
def func (inp : Nat → Int) : Element → Int
  | TOR ins _ _ => ofBool ((ins.map Prod.fst).any fun num => inp num ≠ 0)
  | TAND ins _ _ => ofBool ((ins.map Prod.fst).all fun num => inp num ≠ 0)
  | TNOT _ _ => ofBool (decide (inp 1 = 0))
  | TA2D fvalue _ _ => ofBool (decide (fvalue = inp 1))
  | TSEL_R _ _ _ _ _ => if inp 1 ≠ 0 then inp 2 else inp 3
  | TRS _ _ _ _ _ | TDelay _ _ _ => 0

/-- What does not change in an element: its inputs and its function. -/
structure Alike (a b : Element) : Prop where
  port : a.port = b.port
  inputs : a.inputs = b.inputs
  func : ∀ inp, a.func inp = b.func inp

theorem Alike.refl (a : Element) : Alike a a := ⟨rfl, rfl, fun _ => rfl⟩

theorem Alike.trans {a b c : Element} (alike' : Alike a b) (alike : Alike b c) : Alike a c :=
  ⟨alike'.port.trans alike.port, alike'.inputs.trans alike.inputs, fun inp => (alike'.func inp).trans (alike.func inp)⟩

/-! ### Received values -/

/-- The element keeps the value of the input, or what it needs of it. -/
def Holds : Element → Nat → Int → Prop
  | TOR ins _ _, num, value | TAND ins _ _, num, value => ∀ kept, ins.lookup num = some kept → kept = value
  | TNOT myout _, _, value => myout = decide (value = 0)
  | TA2D fvalue myout _, _, value => myout = decide (fvalue = value)
  | TSEL_R controlInp trueInp falseInp _ _, num, value =>
    (num = 1 → controlInp = decide (value ≠ 0)) ∧ (num = 2 → trueInp = value) ∧
      (num = 3 → falseInp = value)
  | TRS _ _ _ _ _, _, _ | TDelay _ _ _, _, _ => False

/-- **An input has received a value**, and the output has been forwarded. -/
structure Received (el : Element) (num : Nat) (value : Int) : Prop where
  forwarded : el.initOut = false
  holds : Holds el num value

/-- **The output of an element agrees with the inputs it keeps**; it is one of the elements that have a
function. -/
def Sound : Element → Prop
  | TOR ins myout _ => (ins.map Prod.fst).Nodup ∧ myout = ins.any fun it => it.2 ≠ 0
  | TAND ins myout _ => (ins.map Prod.fst).Nodup ∧ myout = ins.all fun it => it.2 ≠ 0
  | TNOT _ _ | TA2D _ _ _ => True
  | TSEL_R controlInp trueInp falseInp myout _ => myout = if controlInp then trueInp else falseInp
  | TRS _ _ _ _ _ | TDelay _ _ _ => False

/-- **A change that a `SEL_R` does not forward**: the output was neither 0 nor 1, and the input selected
after the call is 1. -/
def Missed (num : Nat) (value : Int) : Element → Prop
  | TSEL_R controlInp trueInp falseInp myout initOut =>
    initOut = false ∧ myout ≠ 0 ∧ myout ≠ 1 ∧
      (if (if num = 1 then decide (value ≠ 0) else controlInp) then
        (if num = 2 then value else trueInp) else if num = 3 then value else falseInp) = 1
  | _ => False

instance (num : Nat) (value : Int) : (el : Element) → Decidable (Missed num value el)
  | TOR _ _ _ | TAND _ _ _ | TNOT _ _ | TA2D _ _ _ | TRS _ _ _ _ _ | TDelay _ _ _ =>
    inferInstanceAs (Decidable False)
  | TSEL_R _ _ _ _ _ => inferInstanceAs (Decidable (_ ∧ _ ∧ _ ∧ _))

/-! ### The inputs of `OR` and `AND` -/

theorem keys_setFirst (num : Nat) (value : Int) (ins : List (Nat × Int)) :
    (setFirst num value ins).map Prod.fst = ins.map Prod.fst := by
  induction ins with
  | nil => rfl
  | cons it ins ih =>
    rw [setFirst]
    split
    · next same => rw [List.map_cons, List.map_cons, same]
    · rw [List.map_cons, List.map_cons, ih]

theorem lookup_setFirst (num : Nat) (value : Int) (n : Nat) (ins : List (Nat × Int)) :
    (setFirst num value ins).lookup n =
      if n = num then (ins.lookup n).map fun _ => value else ins.lookup n := by
  induction ins with
  | nil => simp [setFirst]
  | cons it ins ih =>
    obtain ⟨key, kept⟩ := it
    rw [setFirst]
    by_cases same : key = num
    · subst same
      by_cases same' : n = key
      · simp [same']
      · simp [same', List.lookup_cons, beq_false_of_ne same']
    · rw [if_neg same]
      by_cases same' : n = key
      · subst same'
        simp [same]
      · simp [List.lookup_cons, beq_false_of_ne same', ih]

variable {ins : List (Nat × Int)}

theorem lookup_of_mem (nodup : (ins.map Prod.fst).Nodup) {it : Nat × Int} (hit : it ∈ ins) :
    ins.lookup it.1 = some it.2 := by
  induction ins with
  | nil => cases hit
  | cons head ins ih =>
    obtain ⟨key, kept⟩ := head
    rw [List.map_cons, List.nodup_cons] at nodup
    rcases List.mem_cons.mp hit with rfl | hit
    · rw [List.lookup_cons, beq_self_eq_true]
    · have apart : it.1 ≠ key := fun same => nodup.1 (same ▸ List.mem_map.mpr ⟨it, hit, rfl⟩)
      rw [List.lookup_cons, beq_false_of_ne apart]
      exact ih nodup.2 hit

/-- The kept inputs after a call, for the number of the call and any other one. -/
theorem kept_setFirst {num : Nat} {value : Int} {n : Nat} {w : Int}
    (holds : ∀ kept, ins.lookup n = some kept → kept = w)
    (same : n = num → n ∈ ins.map Prod.fst → w = value) (kept : Int)
    (found : (setFirst num value ins).lookup n = some kept) : kept = w := by
  rw [lookup_setFirst] at found
  split at found
  · next here =>
    obtain ⟨old, hold, rfl⟩ := Option.map_eq_some_iff.mp found
    refine (same here ?_).symm
    obtain ⟨before, after, split, -⟩ := List.lookup_eq_some_iff.mp hold
    rw [split]
    simp
  · exact holds kept found

/-! ### One call -/

variable {el : Element} {now num : Nat} {value : Int}

theorem unchanged_iff {initOut : Bool} :
    unchanged ins initOut num value = true ↔ ins.lookup num = some value ∧ initOut = false := by
  simp [unchanged]

theorem setIn_alike (el : Element) : Alike el (el.setIn now num value).1 := by
  cases el with
  | TOR ins myout initOut | TAND ins myout initOut =>
    rw [setIn]
    split
    · exact Alike.refl _
    · exact ⟨rfl, by simp only [inputs, keys_setFirst], fun inp => by simp only [func, keys_setFirst]⟩
  | TNOT myout initOut => exact ⟨rfl, rfl, fun _ => rfl⟩
  | TA2D fvalue myout initOut => exact ⟨rfl, rfl, fun _ => rfl⟩
  | TSEL_R controlInp trueInp falseInp myout initOut => exact ⟨rfl, rfl, fun _ => rfl⟩
  | TRS dominantReset setInp resetInp myout initOut => exact ⟨rfl, rfl, fun _ => rfl⟩
  | TDelay delay pt myout =>
    rw [setIn]
    split
    · exact ⟨rfl, rfl, fun _ => rfl⟩
    · split
      · exact ⟨rfl, rfl, fun _ => rfl⟩
      · exact ⟨rfl, rfl, fun _ => rfl⟩

/-- A call leaves an element whose output agrees with its inputs. -/
theorem Sound.setIn (sound : Sound el) : Sound (el.setIn now num value).1 := by
  cases el with
  | TOR ins myout initOut | TAND ins myout initOut =>
    rw [Element.setIn]
    split
    · exact sound
    · exact ⟨by rw [keys_setFirst]; exact sound.1, rfl⟩
  | TNOT myout initOut => trivial
  | TA2D fvalue myout initOut => trivial
  | TSEL_R controlInp trueInp falseInp myout initOut => rfl
  | TRS dominantReset setInp resetInp myout initOut => exact sound.elim
  | TDelay delay pt myout => exact sound.elim

/-- **After a call its input has received the value.** -/
theorem Sound.received (sound : Sound el) : Received (el.setIn now num value).1 num value := by
  have holds : ∀ ins : List (Nat × Int), ∀ kept, (setFirst num value ins).lookup num = some kept →
      kept = value := by
    intro ins kept stored
    rw [lookup_setFirst, if_pos rfl] at stored
    obtain ⟨old, -, same'⟩ := Option.map_eq_some_iff.mp stored
    exact same'.symm
  cases el with
  | TOR ins myout initOut | TAND ins myout initOut =>
    rw [Element.setIn]
    split
    · next same =>
      obtain ⟨found, begun⟩ := unchanged_iff.mp same
      exact ⟨begun, fun kept stored => (Option.some.inj (found.symm.trans stored)).symm⟩
    · exact ⟨rfl, holds ins⟩
  | TNOT myout initOut => exact ⟨rfl, by simp [Holds, Element.setIn]⟩
  | TA2D fvalue myout initOut => exact ⟨rfl, rfl⟩
  | TSEL_R controlInp trueInp falseInp myout initOut =>
    exact ⟨rfl, fun same' => if_pos same', fun same' => if_pos same', fun same' => if_pos same'⟩
  | TRS dominantReset setInp resetInp myout initOut => exact sound.elim
  | TDelay delay pt myout => exact sound.elim

/-- **A call keeps what other inputs have received**, and its own one if the value is the same. -/
theorem Received.setIn {n : Nat} {w : Int} (received : Received el n w)
    (same : el.port n = el.port num → el.port n ∈ el.inputs → w = value) :
    Received (el.setIn now num value).1 n w := by
  cases el with
  | TOR ins myout initOut | TAND ins myout initOut =>
    rw [Element.setIn]
    split
    · exact received
    · exact ⟨rfl, kept_setFirst received.holds same⟩
  | TNOT myout initOut =>
    obtain rfl := same rfl List.mem_cons_self
    exact ⟨rfl, by simp [Holds, Element.setIn]⟩
  | TA2D fvalue myout initOut =>
    obtain rfl := same rfl List.mem_cons_self
    exact ⟨rfl, rfl⟩
  | TSEL_R controlInp trueInp falseInp myout initOut =>
    have kept : ∀ k, n = k → k ∈ [1, 2, 3] → num = k → w = value := by
      rintro k rfl member rfl
      exact same rfl member
    refine ⟨rfl, fun port => ?_, fun port => ?_, fun port => ?_⟩
    · by_cases same' : num = 1
      · rw [if_pos same', kept 1 port (by simp) same']
      · rw [if_neg same']
        exact received.holds.1 port
    · by_cases same' : num = 2
      · rw [if_pos same', kept 2 port (by simp) same']
      · rw [if_neg same']
        exact received.holds.2.1 port
    · by_cases same' : num = 3
      · rw [if_pos same', kept 3 port (by simp) same']
      · rw [if_neg same']
        exact received.holds.2.2 port
  | TRS dominantReset setInp resetInp myout initOut => exact received.holds.elim
  | TDelay delay pt myout => exact received.holds.elim

/-- **A call that does not forward leaves the output**, unless the change is missed. -/
theorem Sound.setIn_quiet (sound : Sound el) (quiet : (el.setIn now num value).2 = false)
    (missed : ¬Missed num value el) :
    el.initOut = false ∧ (el.setIn now num value).1.getOut = el.getOut := by
  cases el with
  | TOR ins myout initOut | TAND ins myout initOut =>
    rw [Element.setIn] at quiet ⊢
    split at quiet
    · next same =>
      rw [if_pos same]
      exact ⟨(unchanged_iff.mp same).2, rfl⟩
    · next changed =>
      rw [if_neg changed]
      simp only [Bool.or_eq_false_iff, decide_eq_false_iff_not, not_not] at quiet
      exact ⟨quiet.2, congrArg ofBool quiet.1.symm⟩
  | TNOT myout initOut =>
    simp only [Element.setIn, Bool.or_eq_false_iff, decide_eq_false_iff_not, not_not] at quiet
    exact ⟨quiet.2, congrArg ofBool quiet.1.symm⟩
  | TA2D fvalue myout initOut =>
    simp only [Element.setIn, Bool.or_eq_false_iff, decide_eq_false_iff_not, not_not] at quiet
    exact ⟨quiet.2, congrArg ofBool quiet.1.symm⟩
  | TSEL_R controlInp trueInp falseInp myout initOut =>
    simp only [Element.setIn, Bool.or_eq_false_iff, decide_eq_false_iff_not, not_not] at quiet
    obtain ⟨prev, begun⟩ := quiet
    refine ⟨begun, prev.symm.trans ?_⟩
    -- as a `bool` the output before is 0 or 1, so it is lost only where it is neither
    by_cases zero : myout = 0
    · simp [zero, ofBool, getOut]
    · by_cases one : myout = 1
      · simp [one, ofBool, getOut]
      · refine absurd ⟨begun, zero, one, prev.symm.trans ?_⟩ missed
        simp [zero, ofBool]
  | TRS dominantReset setInp resetInp myout initOut => exact sound.elim
  | TDelay delay pt myout => exact sound.elim

/-- Where nothing is kept but received values, the kept inputs are them. -/
theorem kept_eq (nodup : (ins.map Prod.fst).Nodup) {inp : Nat → Int}
    (holds : ∀ num ∈ ins.map Prod.fst, ∀ kept, ins.lookup num = some kept → kept = inp num)
    {it : Nat × Int} (hit : it ∈ ins) : it.2 = inp it.1 :=
  holds it.1 (List.mem_map_of_mem hit) it.2 (lookup_of_mem nodup hit)

/-- **The output is the function of the received values.** -/
theorem Sound.getOut_eq_func (sound : Sound el) {inp : Nat → Int}
    (found : ∀ input ∈ el.inputs, ∃ num, el.port num = input ∧ Received el num (inp input)) :
    el.getOut = el.func inp := by
  cases el with
  | TOR ins myout initOut =>
    have kept : ∀ it ∈ ins, it.2 = inp it.1 := fun it => kept_eq sound.1 fun num member => by
      obtain ⟨_, rfl, received⟩ := found num member
      exact received.holds
    rw [getOut, func, sound.2, List.any_map]
    refine congrArg ofBool (Bool.eq_iff_iff.mpr ?_)
    simp only [List.any_eq_true, Function.comp_apply, decide_eq_true_eq]
    exact exists_congr fun it => and_congr_right fun hit => by rw [kept it hit]
  | TAND ins myout initOut =>
    have kept : ∀ it ∈ ins, it.2 = inp it.1 := fun it => kept_eq sound.1 fun num member => by
      obtain ⟨_, rfl, received⟩ := found num member
      exact received.holds
    rw [getOut, func, sound.2, List.all_map]
    refine congrArg ofBool (Bool.eq_iff_iff.mpr ?_)
    simp only [List.all_eq_true, Function.comp_apply, decide_eq_true_eq]
    exact forall_congr' fun it => forall_congr' fun hit => by rw [kept it hit]
  | TNOT myout initOut =>
    obtain ⟨_, -, received⟩ := found 1 List.mem_cons_self
    exact congrArg ofBool received.holds
  | TA2D fvalue myout initOut =>
    obtain ⟨_, -, received⟩ := found 1 List.mem_cons_self
    exact congrArg ofBool received.holds
  | TSEL_R controlInp trueInp falseInp myout initOut =>
    obtain ⟨_, control, gotControl⟩ := found 1 (by simp [inputs])
    obtain ⟨_, first, gotTrue⟩ := found 2 (by simp [inputs])
    obtain ⟨_, second, gotFalse⟩ := found 3 (by simp [inputs])
    rw [getOut, func, sound, gotControl.holds.1 control, gotTrue.holds.2.1 first, gotFalse.holds.2.2 second]
    simp
  | TRS dominantReset setInp resetInp myout initOut => exact sound.elim
  | TDelay delay pt myout => exact sound.elim

/-! ### New elements -/

/-- An element as it is made, of one of the kinds that have a function. -/
inductive Fresh : Element → Prop
  | newTOR (num : Nat) (st : Bool) : Fresh (newTOR num st)
  | newTAND (num : Nat) (st : Bool) : Fresh (newTAND num st)
  | newTNOT (st : Bool) : Fresh (newTNOT st)
  | newTA2D (filterValue : Int) : Fresh (newTA2D filterValue)
  | newTSEL_R (st : Bool) (selFalse selTrue : Int) : Fresh (newTSEL_R st selFalse selTrue)

theorem Fresh.initOut (fresh : Fresh el) : el.initOut = true := by
  cases fresh <;> rfl

theorem keys_initIns (num : Nat) (st : Bool) :
    (initIns num st).map Prod.fst = (List.range num).map (· + 1) := by
  simp [initIns]

theorem nodup_initIns (num : Nat) (st : Bool) : ((initIns num st).map Prod.fst).Nodup := by
  rw [keys_initIns]
  exact List.nodup_range.map fun a b same => Nat.succ.inj same

/-- A new element with inputs is sound; so is a new `OR` without inputs. -/
theorem Fresh.sound (fresh : Fresh el) (holds : el.inputs = [] → el = Element.newTOR 0 false) : Sound el := by
  cases fresh with
  | newTOR num st =>
    refine ⟨nodup_initIns num st, ?_⟩
    cases num with
    | zero => rfl
    | succ num => cases st <;> simp [initIns, ofBool, List.range_succ]
  | newTAND num st =>
    refine ⟨nodup_initIns num st, ?_⟩
    cases num with
    | zero => cases holds rfl
    | succ num => cases st <;> simp [initIns, ofBool, List.range_succ]
  | newTNOT st => trivial
  | newTA2D filterValue => trivial
  | newTSEL_R st selFalse selTrue => rfl

end Element

end UniSet.LogicProcessor
