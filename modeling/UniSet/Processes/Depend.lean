/-
**Dependency consistency.**

A dependant `s` of a listed sensor `d` is consistent (`DependOk`) when it is blocked exactly while
the value of `d` differs from its enabling value. A write of `d` breaks this for its dependants and
the emission of `sigChange` repairs it slot by slot. A readonly dependant whose flag flips throws
out of its slot, and `sigc++` runs none of the later ones: `ReadonlyLast` says that no ordinary
dependant is connected behind a readonly one, and under it

* `emitChange_establishes` — the emission leaves every ordinary dependant consistent;
* `KeepsDepend` — a call keeps every ordinary dependant consistent, whatever the state of the
  others, so that the partly visited list of `activateInit` is covered too;
* **`depend_consistent`** — every ordinary dependant is consistent after activation and after every
  run of requests.

`readonly_dependant_hides` is the run in which a readonly dependant, connected first, keeps the
change of its depend sensor from the next one.
-/

import UniSet.Processes.VisibleValue

namespace UniSet.Processes.IOController

open USensorInfo

/-- **No ordinary dependant behind a readonly one** in the `sigChange` of a sensor that can change. -/
def ReadonlyLast (io : IOList) : Prop :=
  ∀ d ∈ io.ids, (io.info d).readonly = false → (io.sigChange d).Pairwise fun c s =>
    (io.info c).readonly = true → (io.info s).readonly = true

instance (io : IOList) : Decidable (ReadonlyLast io) :=
  inferInstanceAs (Decidable (∀ d ∈ io.ids, _ → List.Pairwise _ _))

variable {io : IOList} {self : LocalSetValue}

/-- **A dependant is blocked exactly while its depend sensor does not have the enabling value.** -/
def DependOk (io : IOList) (s : ObjectId) (st : Store) : Prop :=
  (st.usi s).blocked = ((st.usi (io.info s).dependSid).value != (io.info s).dValue)

variable {st : Store} {s : ObjectId}

theorem DependOk.congr {st' : Store} (ok : DependOk io s st)
    (blocked : (st'.usi s).blocked = (st.usi s).blocked)
    (value : (st'.usi (io.info s).dependSid).value = (st.usi (io.info s).dependSid).value) :
    DependOk io s st' := by
  unfold DependOk at ok ⊢
  rw [blocked, value]
  exact ok

/-- What a call does for the dependants: it keeps the consistent ones consistent, and it does not
throw on a sensor that is not readonly. -/
structure KeepsDepend (io : IOList) (write : LocalSetValue) : Prop where
  keeps : ∀ a out, write a = some out → ∀ s ∈ io.ids, (io.info s).readonly = false →
    (io.info s).dependSid ∈ io.ids → DependOk io s a.store → DependOk io s out.1
  accepts : ∀ a out, write a = some out → (io.info a.sid).readonly = false → ∃ v, out.2 = .ok v

section Slots

variable (call : KeepsDepend io self) {s : ObjectId} (member : s ∈ io.ids)
  (ordinary : (io.info s).readonly = false) (listed : (io.info s).dependSid ∈ io.ids)

include call member ordinary listed

/-- **A depend check makes its own sensor consistent.** -/
theorem checkDepend_establishes {out : Outcome Unit}
    (ran : checkDepend io self st s (io.info s).dependSid = some out)
    (different : (io.info s).dependSid ≠ s) : DependOk io s out.1 := by
  have flagged : DependOk io s (st.setUsi s ((st.usi s).dependSection (io.info s)
      (st.usi (io.info s).dependSid).value)) := by
    unfold DependOk
    rw [Store.setUsi_self, Store.setUsi_of_ne _ _ _ different]
    rfl
  rcases checkDepend_cases ran with ⟨-, rfl⟩ | ⟨-, out', called, rfl⟩
  · exact flagged
  · exact call.keeps _ _ called s member ordinary listed flagged

/-- A depend check keeps every consistent dependant consistent. -/
theorem checkDepend_keepsDepend {c d : ObjectId} {out : Outcome Unit}
    (ran : checkDepend io self st c d = some out) (own : c = s → d = (io.info s).dependSid)
    (different : (io.info s).dependSid ≠ s) (ok : DependOk io s st) : DependOk io s out.1 := by
  by_cases here : c = s
  · have same := own here
    subst here
    subst same
    exact checkDepend_establishes call member ordinary listed ran different
  · have flagged : DependOk io s
        (st.setUsi c ((st.usi c).dependSection (io.info c) (st.usi d).value)) := by
      refine ok.congr (by rw [Store.setUsi_of_ne _ _ _ (Ne.symm here)]) ?_
      by_cases same : (io.info s).dependSid = c
      · rw [same, Store.setUsi_self]
        rfl
      · rw [Store.setUsi_of_ne _ _ _ same]
    rcases checkDepend_cases ran with ⟨-, rfl⟩ | ⟨-, out', called, rfl⟩
    · exact flagged
    · exact call.keeps _ _ called s member ordinary listed flagged

/-- **The emission reaches every ordinary dependant**: the slots before it are ordinary and do not
throw, its own check makes it consistent, and the slots behind it keep it so. -/
theorem emitChange_establishes {slots : List ObjectId} {st' : Store}
    (ordered : slots.Pairwise fun c s =>
      (io.info c).readonly = true → (io.info s).readonly = true) (slot : s ∈ slots)
    (different : (io.info s).dependSid ≠ s)
    (ran : emitChange io self (io.info s).dependSid st slots = some st') : DependOk io s st' := by
  induction slots generalizing st with
  | nil => cases slot
  | cons c rest ih =>
    obtain ⟨behind, ordered⟩ := List.pairwise_cons.mp ordered
    simp only [emitChange] at ran
    by_cases here : s = c
    · subst here
      split at ran
      · cases ran
      · rename_i checked
        cases ran
        exact checkDepend_establishes call member ordinary listed checked different
      · rename_i mid _ checked
        exact emitChange_keeps (P := DependOk io s) (fun st c out _ ran ok =>
          checkDepend_keepsDepend call member ordinary listed ran (fun _ => rfl) different ok) ran
          (checkDepend_establishes call member ordinary listed checked different)
    · have later : s ∈ rest := (List.mem_cons.mp slot).resolve_left here
      split at ran
      · cases ran
      · rename_i mid ex checked
        -- an exception out of this slot would mean a readonly dependant in front of `s`
        have writable : (io.info c).readonly = false := by
          cases readonly : (io.info c).readonly with
          | false => rfl
          | true => exact (behind s later readonly).symm.trans ordinary
        rcases checkDepend_cases checked with ⟨-, same⟩ | ⟨-, out', called, same⟩
        · cases same
        · obtain ⟨v, accepted⟩ := call.accepts _ _ called writable
          rw [accepted] at same
          cases same
      · exact ih ordered later ran

end Slots

/-- A sensor of an acyclic list does not depend on itself. -/
theorem dependSid_ne (acyclic : Lib.Acyclic io.Depends) (member : s ∈ io.ids)
    (listed : (io.info s).dependSid ∈ io.ids) : (io.info s).dependSid ≠ s := by
  intro same
  have named := (IOList.first_spec listed).1
  have slot : s ∈ io.sigChange (io.info s).dependSid :=
    (io.connected _ s).mpr ⟨member, rfl, named, listed⟩
  rw [same] at slot
  exact acyclic s (.single slot)

/-- **One level of the cascade keeps every dependant consistent.** -/
theorem localSetValue_keepsDepend (acyclic : Lib.Acyclic io.Depends) (ordered : ReadonlyLast io)
    (call : KeepsDepend io self) : KeepsDepend io (localSetValue io self) := by
  refine ⟨fun a out ran s member ordinary listed ok => ?_, fun a out ran writable => ?_⟩
  · have different := dependSid_ne acyclic member listed
    have named := (IOList.first_spec listed).1
    have blocked : ∀ u, (u = (a.store.usi a.sid).writeSection (io.info a.sid) a.store.clock
        a.value a.sup) → ((a.store.setUsi a.sid u).usi s).blocked = (a.store.usi s).blocked := by
      rintro u rfl
      by_cases here : s = a.sid
      · subst here
        rw [Store.setUsi_self, writeSection_blocked]
      · rw [Store.setUsi_of_ne _ _ _ here]
    rcases localSetValue_cases ran with ⟨-, rfl⟩ | ⟨-, quiet, rfl⟩ | ⟨free, -, st, emitted, rfl⟩
    · exact ok
    · refine ok.congr (blocked _ rfl) ?_
      by_cases here : (io.info s).dependSid = a.sid
      · rw [here, Store.setUsi_self, writeSection_value_of_quiet quiet]
      · rw [Store.setUsi_of_ne _ _ _ here]
    · have kept : DependOk io s st := by
        by_cases here : (io.info s).dependSid = a.sid
        · rw [← here] at emitted
          exact emitChange_establishes call member ordinary listed
            (ordered _ listed (here ▸ free))
            ((io.connected _ s).mpr ⟨member, rfl, named, listed⟩) different emitted
        · refine emitChange_keeps (P := DependOk io s) (fun st c out slot ran ok => ?_) emitted
            (ok.congr (blocked _ rfl) (by rw [Store.setUsi_of_ne _ _ _ here]))
          refine checkDepend_keepsDepend call member ordinary listed ran (fun same => ?_) different ok
          subst same
          exact ((io.connected _ c).mp slot).2.1.symm
      exact kept
  · rcases localSetValue_cases ran with ⟨readonly, rfl⟩ | ⟨-, -, rfl⟩ | ⟨-, -, st, -, rfl⟩
    · rw [readonly] at writable
      cases writable
    · exact ⟨_, rfl⟩
    · exact ⟨_, rfl⟩

theorem dispatch_keepsDepend (acyclic : Lib.Acyclic io.Depends) (ordered : ReadonlyLast io) :
    KeepsDepend io (dispatch io) :=
  Lib.unroll_induct ⟨(fun _ _ ran => nomatch ran), (fun _ _ ran => nomatch ran)⟩
    (fun _ call => localSetValue_keepsDepend acyclic ordered call) _

/-! ### Whole runs -/

theorem Op.apply_keepsDepend (call : KeepsDepend io self) {st' : Store} {op : Op}
    (ran : op.apply io self st = some st') (member : s ∈ io.ids)
    (ordinary : (io.info s).readonly = false) (listed : (io.info s).dependSid ∈ io.ids)
    (ok : DependOk io s st) : DependOk io s st' := by
  rcases Op.apply_cases ran with ⟨now, -, rfl⟩ | ⟨sid, value, sup, out, -, called, rfl⟩ |
    ⟨sid, set, value, sup, out, -, -, called, rfl⟩ | ⟨rfl, -⟩
  · exact ok
  · exact call.keeps _ _ called s member ordinary listed ok
  · refine call.keeps _ _ called s member ordinary listed ?_
    have flags : ∀ x, ((st.setUsi sid ((st.usi sid).freezeSection set value)).usi x).blocked =
          (st.usi x).blocked ∧
        ((st.setUsi sid ((st.usi sid).freezeSection set value)).usi x).value = (st.usi x).value := by
      intro x
      by_cases here : x = sid
      · subst here
        rw [Store.setUsi_self]
        exact ⟨rfl, rfl⟩
      · rw [Store.setUsi_of_ne _ _ _ here]
        exact ⟨rfl, rfl⟩
    exact ok.congr (flags s).1 (flags _).2
  · exact ok

/-- **The activation makes every visited dependant consistent.** -/
theorem activateInit_establishes (call : KeepsDepend io self) (acyclic : Lib.Acyclic io.Depends)
    {visit : List ObjectId} {st' : Store}
    (ran : activateInit io self (fun st _ => some st) st visit = some st') (member : s ∈ io.ids)
    (ordinary : (io.info s).readonly = false) (listed : (io.info s).dependSid ∈ io.ids)
    (visited : s ∈ visit) : DependOk io s st' := by
  have different := dependSid_ne acyclic member listed
  have named := (IOList.first_spec listed).1
  induction visit generalizing st with
  | nil => cases visited
  | cons c rest ih =>
    obtain ⟨mid, inited, rested⟩ := Option.bind_eq_some_iff.mp ran
    by_cases here : s = c
    · subst here
      have consistent : DependOk io s mid := by
        simp only [initSensor, if_pos (show (io.info s).dependSid ≠ defaultObjectId ∧ _ from
          ⟨named, listed⟩)] at inited
        split at inited
        · cases inited
        · rename_i checked
          cases inited
          exact checkDepend_establishes call member ordinary listed checked different
        · rename_i checked
          cases inited
          exact checkDepend_establishes call member ordinary listed checked different
      exact activateInit_keeps (P := DependOk io s) (fun st c out _ ran ok =>
        checkDepend_keepsDepend call member ordinary listed ran (fun same => by rw [same]) different
          ok) (fun _ _ _ inited ok => Option.some.inj inited ▸ ok) (fun _ ok => ok) rested consistent
    · exact ih rested ((List.mem_cons.mp visited).resolve_left here)

/-- **Dependency consistency.** If no ordinary dependant is connected behind a readonly one, then
after activation and after every run of requests every ordinary dependant of a listed sensor is
blocked exactly while that sensor does not show the enabling value. -/
theorem depend_consistent (io : IOList) (acyclic : Lib.Acyclic io.Depends)
    (ordered : ReadonlyLast io) (now : Timespec) (ops : List Op) :
    ∃ st, run io now ops = some st ∧ ∀ s ∈ io.ids, (io.info s).readonly = false →
      (io.info s).dependSid ∈ io.ids →
      (st.usi s).blocked = ((st.usi (io.info s).dependSid).value != (io.info s).dValue) := by
  obtain ⟨st, ran⟩ := run_isSome acyclic now ops
  refine ⟨st, ran, fun s member ordinary listed => ?_⟩
  have call := dispatch_keepsDepend acyclic ordered
  obtain ⟨active, activated, served⟩ := Option.bind_eq_some_iff.mp ran
  exact runOps_keeps (P := DependOk io s)
    (fun _ _ _ _ applied => Op.apply_keepsDepend call applied member ordinary listed) served
    (activateInit_establishes call acyclic activated member ordinary listed member)

/-- Sensor `1` enables the sensors `2` and `3`; sensor `2` is readonly. `readonlyFirst` connects it
first, `readonlySecond` last. -/
def readonlyItems : List SensorItem :=
  [{ id := 1, iotype := "DI", defaultVal := 1 },
   { id := 2, iotype := "DI", depend := some 1, readonly := 1 },
   { id := 3, iotype := "AI", depend := some 1, defaultVal := 7 }]

def readonlyFirst : IOList :=
  IOList.ofRead (rfl : readList ⟨0, 0⟩ [] readonlyItems = .ok _) [1, 2, 3] [1, 2, 3] (by decide)
    (by decide) 100 fun _ => []

def readonlySecond : IOList :=
  IOList.ofRead (rfl : readList ⟨0, 0⟩ [] readonlyItems = .ok _) [1, 2, 3] [3, 2, 1] (by decide)
    (by decide) 100 fun _ => []

/-- With the readonly dependant connected last, the ordinary one follows the write. -/
theorem depend_consistent_readonlySecond : ∃ st,
    run readonlySecond ⟨0, 0⟩ [.setValue 1 0 100] = some st ∧
      (st.usi 3).blocked = ((st.usi 1).value != 1) := by
  obtain ⟨st, ran, consistent⟩ := depend_consistent readonlySecond
    (IOList.acyclic_of_slots Int.toNat (by decide +kernel)) (by decide +kernel) ⟨0, 0⟩
    [.setValue 1 0 100]
  exact ⟨st, ran, consistent 3 (by decide +kernel) (by decide +kernel) (by decide +kernel)⟩

/-- **A readonly dependant hides the change from the next one.** Sensor `1` is set to `0`; the check
of sensor `2` throws, and sensor `3` stays unblocked and shows `7`. -/
theorem readonly_dependant_hides : Lib.Acyclic readonlyFirst.Depends ∧
    ∃ st, run readonlyFirst ⟨0, 0⟩ [.setValue 1 0 100] = some st ∧
      3 ∈ readonlyFirst.ids ∧ (readonlyFirst.info 3).readonly = false ∧
      (readonlyFirst.info 3).dependSid ∈ readonlyFirst.ids ∧
      (st.usi 3).blocked ≠
        ((st.usi (readonlyFirst.info 3).dependSid).value != (readonlyFirst.info 3).dValue) := by
  refine ⟨IOList.acyclic_of_slots Int.toNat (by decide +kernel), ?_⟩
  have ran : (run readonlyFirst ⟨0, 0⟩ [.setValue 1 0 100]).map (fun st =>
      ((st.usi 3).blocked, (st.usi (readonlyFirst.info 3).dependSid).value)) =
      some (false, 0) := by decide +kernel
  obtain ⟨st, ran, same⟩ := Option.map_eq_some_iff.mp ran
  obtain ⟨blocked, value⟩ := Prod.mk.inj same
  refine ⟨st, ran, by decide +kernel, by decide +kernel, by decide +kernel, ?_⟩
  rw [blocked, value]
  decide +kernel

end UniSet.Processes.IOController
