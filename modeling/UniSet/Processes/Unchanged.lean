/-
**A write that changes nothing.**

`localSetValue` infers from the shown value whether a flag has changed: `blocked` should be set exactly
while `dOffValue` is shown, `frozen` exactly while `frozenValue` is shown. Where a sensor shows one of
these values by chance, every write of the value it has counts as a change.

* `writeAll` — writes of one value, each with its time and its supplier.
* `Unnoticed` — such writes of the real value leave the whole store, but for the supplier.
* `Distinct` — the condition: the four stored values do not coincide by chance.
* **`unnoticed_iff`** — the writes are not noticed exactly under the condition; `zero_noticed` is a
  sensor with all defaults.
-/

import UniSet.Processes.VisibleValue

namespace UniSet.Processes.IOController

open USensorInfo

/-- Writes of one value by `localSetValue`, one after the other. -/
def writeAll (io : IOList) (self : LocalSetValue) (sid : ObjectId) (v : Value) :
    Store → List (Timespec × ObjectId) → Option Store
  | st, [] => some st
  | st, (now, sup) :: rest =>
    (localSetValue io self ⟨{ st with clock := now }, sid, v, sup⟩).bind fun out =>
      writeAll io self sid v out.1 rest

/-- Nothing has changed but the supplier of the sensor, and nothing was emitted. -/
def Untouched (sid : ObjectId) (st after : Store) : Prop :=
  ∃ now sup, after = { st.setUsi sid { st.usi sid with supplier := sup } with clock := now }

/-- **Writes of the real value are not noticed**, however often it is written and whatever the virtual
function does that the slots of `sigChange` call. -/
def Unnoticed (io : IOList) (sid : ObjectId) (st : Store) : Prop :=
  ∀ self writes, ∃ after, writeAll io self sid (st.usi sid).realValue st writes = some after ∧
    Untouched sid st after

/-- **The condition**: a sensor with no flag set shows neither value of the flags, one with a single
flag set has two different values for them, and one with both set has the same. -/
def Distinct (conf : SensorConf) (u : USensorInfo) : Prop :=
  if u.frozen && u.blocked then u.frozenValue = conf.dOffValue
  else if u.frozen || u.blocked then u.frozenValue ≠ conf.dOffValue
  else u.realValue ≠ conf.dOffValue ∧ u.realValue ≠ u.frozenValue

instance (conf : SensorConf) (u : USensorInfo) : Decidable (Distinct conf u) := by
  unfold Distinct
  infer_instance

/-! ### One write -/

section OneWrite

variable {conf : SensorConf} {u : USensorInfo} {io : IOList} {self : LocalSetValue} {sid : ObjectId}
  {st after : Store}

/-- **A write of the real value does not fire** exactly under the condition. -/
theorem quiet_iff (ok : VisibleOk conf u) : fires conf u u.realValue = false ↔ Distinct conf u := by
  rw [fires_eq_false, and_iff_right rfl]
  unfold VisibleOk shown at ok
  unfold Distinct
  cases frozen : u.frozen <;> cases blocked : u.blocked <;> rw [frozen, blocked] at ok
  · -- the sensor shows its real value
    have own : u.value = u.realValue := ok
    rw [own, eq_comm, beq_eq_false_iff_ne, eq_comm, beq_eq_false_iff_ne]
    rfl
  · -- it shows the off value
    have off : u.value = conf.dOffValue := ok
    rw [off, beq_self_eq_true, and_iff_right rfl, eq_comm, beq_eq_false_iff_ne, ne_comm]
    rfl
  · -- it shows the frozen value, with the blocking or without it
    have held : u.value = u.frozenValue := ok
    simp [held]
  · have held : u.value = u.frozenValue := ok
    simp [held]

theorem Untouched.refl (sid : ObjectId) (st : Store) : Untouched sid st st := by
  refine ⟨st.clock, (st.usi sid).supplier, ?_⟩
  have same : st.setUsi sid (st.usi sid) = st := by
    unfold Store.setUsi
    rw [Function.update_eq_self]
  exact congrArg (fun t : Store => { t with clock := st.clock }) same.symm

/-- The sensor is the same but for its supplier. -/
theorem Untouched.usi (untouched : Untouched sid st after) :
    ∃ sup, after.usi sid = { st.usi sid with supplier := sup } := by
  obtain ⟨now, sup, rfl⟩ := untouched
  exact ⟨sup, Store.setUsi_self ..⟩

theorem Untouched.trans {last : Store} (untouched : Untouched sid st after)
    (again : Untouched sid after last) : Untouched sid st last := by
  obtain ⟨now, sup, rfl⟩ := untouched
  obtain ⟨now', sup', rfl⟩ := again
  refine ⟨now', sup', ?_⟩
  simp only [Store.setUsi, Function.update_self, Function.update_idem]

theorem Untouched.fires_eq (untouched : Untouched sid st after) (v : Value) :
    fires conf (after.usi sid) v = fires conf (st.usi sid) v := by
  obtain ⟨sup, same⟩ := untouched.usi
  rw [same]
  rfl

/-- A depend check only adds emissions if the virtual function does. -/
theorem checkDepend_emits (emits : ∀ a out, self a = some out →
    a.store.anyChange.length ≤ out.1.anyChange.length) {c d : ObjectId} {out : Outcome Unit}
    (ran : checkDepend io self st c d = some out) :
    st.anyChange.length ≤ out.1.anyChange.length := by
  rcases checkDepend_cases ran with ⟨-, rfl⟩ | ⟨-, out', called, rfl⟩
  · exact Nat.le_refl _
  · exact emits _ _ called

/-- **A write that does not fire, or is refused**, touches nothing. -/
theorem localSetValue_untouched (self : LocalSetValue) (quiet : (io.info sid).readonly = true ∨
    fires (io.info sid) (st.usi sid) (st.usi sid).realValue = false) (now : Timespec)
    (sup : ObjectId) :
    ∃ out, localSetValue io self ⟨{ st with clock := now }, sid, (st.usi sid).realValue, sup⟩ =
      some out ∧ Untouched sid st out.1 := by
  unfold localSetValue
  by_cases readonly : (io.info sid).readonly = true
  · refine ⟨_, if_pos readonly, ?_⟩
    obtain ⟨clock, sup', same⟩ := Untouched.refl sid st
    exact ⟨now, sup', congrArg (fun t : Store => { t with clock := now }) same⟩
  · have unfired : ¬ fires (io.info sid) (st.usi sid) (st.usi sid).realValue = true := by
      rw [quiet.resolve_left readonly]
      exact Bool.false_ne_true
    refine ⟨_, (if_neg readonly).trans (if_neg unfired), now, sup, ?_⟩
    unfold writeSection
    rw [if_neg unfired]
    rfl

/-- A cascade of `IOController` only adds emissions of `sigAnyChange`. -/
theorem dispatch_emits (io : IOList) : ∀ a out, dispatch io a = some out →
    a.store.anyChange.length ≤ out.1.anyChange.length := by
  refine Lib.unroll_induct
    (S := fun self : LocalSetValue => ∀ a out, self a = some out →
      a.store.anyChange.length ≤ out.1.anyChange.length)
    (fun _ _ ran => nomatch ran) (fun self emits a out ran => ?_) _
  rcases localSetValue_cases ran with ⟨-, rfl⟩ | ⟨-, -, rfl⟩ | ⟨-, -, st, emitted, rfl⟩
  · exact Nat.le_refl _
  · exact Nat.le_refl _
  · have kept : a.store.anyChange.length ≤ st.anyChange.length :=
      emitChange_keeps (P := fun st => a.store.anyChange.length ≤ st.anyChange.length)
        (fun st s out _ checked few => Nat.le_trans few (checkDepend_emits emits checked)) emitted
        (Nat.le_refl _)
    rw [List.length_append]
    exact Nat.le_trans kept (Nat.le_add_right ..)

/-- **A write that fires** adds one. -/
theorem localSetValue_noticed (writable : (io.info sid).readonly = false)
    (fired : fires (io.info sid) (st.usi sid) (st.usi sid).realValue = true) (now : Timespec)
    (sup : ObjectId) {out : Outcome Value}
    (ran : localSetValue io (dispatch io)
      ⟨{ st with clock := now }, sid, (st.usi sid).realValue, sup⟩ = some out) :
    ¬ Untouched sid st out.1 := by
  rcases localSetValue_cases ran with ⟨readonly, -⟩ | ⟨-, quiet, -⟩ | ⟨-, -, t, emitted, rfl⟩
  · rw [readonly] at writable
    cases writable
  · have quiet : fires (io.info sid) (st.usi sid) (st.usi sid).realValue = false := quiet
    rw [quiet] at fired
    cases fired
  · rintro ⟨now', sup', same⟩
    have kept : st.anyChange.length ≤ t.anyChange.length :=
      emitChange_keeps (P := fun t => st.anyChange.length ≤ t.anyChange.length)
        (fun _ _ _ _ checked few => Nat.le_trans few (checkDepend_emits (dispatch_emits io) checked)) emitted
        (Nat.le_refl _)
    have more := congrArg (fun t : Store => t.anyChange.length) same
    have more : (t.anyChange ++ [sid]).length = st.anyChange.length := more
    rw [List.length_append, List.length_singleton] at more
    omega

end OneWrite

/-! ### The result -/

/-- **Writes of the value a sensor has are not noticed** exactly if the sensor is readonly, which
refuses them, or its stored values do not coincide by chance. -/
theorem unnoticed_iff (io : IOList) {sid : ObjectId} {st : Store}
    (ok : VisibleOk (io.info sid) (st.usi sid)) :
    Unnoticed io sid st ↔
      (io.info sid).readonly = true ∨ Distinct (io.info sid) (st.usi sid) := by
  rw [← quiet_iff ok]
  constructor
  · intro unnoticed
    refine or_iff_not_imp_left.mpr fun writable => ?_
    obtain ⟨after, ran, untouched⟩ := unnoticed (dispatch io) [(st.clock, defaultObjectId)]
    refine Bool.eq_false_iff.mpr fun fired => ?_
    obtain ⟨out, called, left⟩ := Option.bind_eq_some_iff.mp ran
    cases left
    exact localSetValue_noticed (Bool.eq_false_iff.mpr writable) fired _ _ called untouched
  · intro quiet self writes
    -- the writes leave a sensor with the same values, so the next one is quiet again
    suffices further : ∀ mid, Untouched sid st mid →
        ∃ after, writeAll io self sid (st.usi sid).realValue mid writes = some after ∧
          Untouched sid st after from further st (Untouched.refl sid st)
    induction writes with
    | nil => exact fun mid untouched => ⟨mid, rfl, untouched⟩
    | cons write rest ih =>
      intro mid untouched
      have real : (mid.usi sid).realValue = (st.usi sid).realValue := by
        obtain ⟨sup, same⟩ := untouched.usi
        rw [same]
      have again : (io.info sid).readonly = true ∨
          fires (io.info sid) (mid.usi sid) (mid.usi sid).realValue = false := by
        rw [real, untouched.fires_eq]
        exact quiet
      obtain ⟨out, called, left⟩ := localSetValue_untouched self again write.1 write.2
      obtain ⟨after, ran, last⟩ := ih out.1 (untouched.trans left)
      refine ⟨after, ?_, last⟩
      rw [writeAll, ← real, called]
      exact real ▸ ran

/-- The sensor `11` of the pair with the value `5` written. -/
def written : Store :=
  (loaded dependPair ⟨0, 0⟩).setUsi 11 ⟨5, 5, false, false, 0, 100, ⟨1, 0⟩, 1⟩

theorem written_unnoticed : Unnoticed dependPair 11 written :=
  (unnoticed_iff dependPair (by decide +kernel)).mpr (Or.inr (by decide +kernel))

/-- A discrete input with all defaults. -/
def plain : IOList :=
  IOList.ofRead (rfl : readList ⟨0, 0⟩ [] [{ id := 4, iotype := "DI" }] = .ok _) [4] [4] (by decide)
    (by decide) 100 fun _ => []

/-- **A sensor as it is loaded**: its value `0` is the default of `dOffValue` and of `frozenValue`, so a
write of `0` counts as a change and is announced. -/
theorem zero_noticed :
    (localSetValue plain (dispatch plain) ⟨loaded plain ⟨0, 0⟩, 4, 0, 100⟩).map
        (fun out => ((out.1.usi 4).nchanges, out.1.anyChange)) = some (1, [4]) ∧
      ¬ ∀ (io : IOList) (sid : ObjectId) (st : Store), VisibleOk (io.info sid) (st.usi sid) →
        Unnoticed io sid st := by
  refine ⟨by decide +kernel, fun all => ?_⟩
  obtain ⟨after, ran, untouched⟩ := all plain 4 (loaded plain ⟨0, 0⟩) (by decide +kernel)
    (dispatch plain) [(⟨0, 0⟩, 100)]
  have counted : (writeAll plain (dispatch plain) 4 0 (loaded plain ⟨0, 0⟩) [(⟨0, 0⟩, 100)]).map
      (fun t => (t.usi 4).nchanges) = some 1 := by decide +kernel
  have same : some after = writeAll plain (dispatch plain) 4 0 (loaded plain ⟨0, 0⟩)
      [(⟨0, 0⟩, 100)] := ran.symm
  rw [← same] at counted
  obtain ⟨sup, kept⟩ := untouched.usi
  have once : (after.usi 4).nchanges = 1 := Option.some.inj counted
  rw [kept] at once
  have none : ((loaded plain ⟨0, 0⟩).usi 4).nchanges = 0 := by decide +kernel
  exact absurd (none.symm.trans once) (by decide)

end UniSet.Processes.IOController
