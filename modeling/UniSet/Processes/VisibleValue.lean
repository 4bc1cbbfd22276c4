/-
**The visible-value invariant of the store.**

After activation and after every run of requests, every sensor that is not readonly shows what its
flags select (`VisibleOk`), and stores the argument of the last write (`lastSet`).

Both are properties of the virtual `localSetValue` that `IOController::localSetValue` hands on from
the calls it makes to the call it is:

* `KeepsVisible` — a call leaves every sensor obeying the rule that obeyed it before, and the
  written sensor too if it was settled: the flag sections break the rule and rely on the write.
* `WritesReal` — a call stores its argument in its own sensor and no other; the cascade writes back
  the real value it has just read.
-/

import UniSet.Processes.IOController

namespace UniSet.Processes.IOController

open USensorInfo

variable {io : IOList} {self : LocalSetValue}

/-! ### The visible-value rule -/

/-- A call keeps the visible-value rule of every sensor that is not readonly, and establishes it on
a settled sensor that it writes. -/
def KeepsVisible (io : IOList) (self : LocalSetValue) : Prop :=
  ∀ a out, self a = some out → ∀ s, (io.info s).readonly = false →
    (s ≠ a.sid → VisibleOk (io.info s) (a.store.usi s)) →
    (s = a.sid → Settled (io.info s) (a.store.usi s) a.value) →
    VisibleOk (io.info s) (out.1.usi s)

variable {st : Store} {s : ObjectId}

theorem checkDepend_visible (keeps : KeepsVisible io self) {c d : ObjectId} {out : Outcome Unit}
    (ran : checkDepend io self st c d = some out) (writable : (io.info s).readonly = false)
    (ok : VisibleOk (io.info s) (st.usi s)) :
    VisibleOk (io.info s) (out.1.usi s) := by
  rcases checkDepend_cases ran with ⟨same, rfl⟩ | ⟨flipped, out', called, rfl⟩
  · rw [dependSection_of_same _ same]
    by_cases here : s = c
    · subst here
      rwa [Store.setUsi_self]
    · rwa [Store.setUsi_of_ne _ _ _ here]
  · refine keeps _ _ called s writable (fun other => ?_) (fun here => ?_)
    · rwa [Store.setUsi_of_ne _ _ _ other]
    · subst here
      rw [Store.setUsi_self]
      exact settled_dependSection _ ok flipped

theorem localSetValue_visible (keeps : KeepsVisible io self) :
    KeepsVisible io (localSetValue io self) := by
  intro a out ran s writable others own
  have written : (io.info a.sid).readonly = false → VisibleOk (io.info s)
      ((a.store.setUsi a.sid ((a.store.usi a.sid).writeSection (io.info a.sid) a.store.clock
        a.value a.sup)).usi s) := by
    intro _
    by_cases here : s = a.sid
    · subst here
      rw [Store.setUsi_self]
      exact writeSection_visibleOk (own rfl)
    · rw [Store.setUsi_of_ne _ _ _ here]
      exact others here
  rcases localSetValue_cases ran with ⟨readonly, rfl⟩ | ⟨free, -, rfl⟩ | ⟨free, -, st, emitted, rfl⟩
  · refine others fun here => ?_
    rw [here, readonly] at writable
    cases writable
  · exact written free
  · have kept : VisibleOk (io.info s) (st.usi s) :=
      emitChange_keeps (P := fun st => VisibleOk (io.info s) (st.usi s))
        (fun st c out _ checked ok => checkDepend_visible keeps checked writable ok) emitted
        (written free)
    exact kept

theorem dispatch_visible (io : IOList) : KeepsVisible io (dispatch io) :=
  Lib.unroll_induct (fun _ _ ran => nomatch ran) (fun _ keeps => localSetValue_visible keeps) _

theorem Op.apply_visible (keeps : KeepsVisible io self) {st' : Store} {op : Op}
    (ran : op.apply io self st = some st') (writable : (io.info s).readonly = false)
    (ok : VisibleOk (io.info s) (st.usi s)) :
    VisibleOk (io.info s) (st'.usi s) := by
  rcases Op.apply_cases ran with ⟨now, -, rfl⟩ | ⟨sid, value, sup, out, -, called, rfl⟩ |
    ⟨sid, set, value, sup, out, -, -, called, rfl⟩ | ⟨rfl, -⟩
  · exact ok
  · exact keeps _ _ called s writable (fun _ => ok) (fun _ => ok.settled)
  · refine keeps _ _ called s writable (fun other => ?_) (fun here => ?_)
    · rwa [Store.setUsi_of_ne _ _ _ other]
    · subst here
      rw [Store.setUsi_self]
      exact settled_freezeSection set value
  · exact ok

/-! ### The stored real value -/

/-- A call stores its argument in its own sensor, unless that one is readonly, and leaves the real
value of every other sensor. -/
def WritesReal (io : IOList) (self : LocalSetValue) : Prop :=
  ∀ a out, self a = some out → ∀ s, (out.1.usi s).realValue =
    if s = a.sid ∧ (io.info s).readonly = false then a.value else (a.store.usi s).realValue

theorem checkDepend_real (writes : WritesReal io self) {c d : ObjectId} {out : Outcome Unit}
    (ran : checkDepend io self st c d = some out) (s : ObjectId) :
    (out.1.usi s).realValue = (st.usi s).realValue := by
  rcases checkDepend_cases ran with ⟨same, rfl⟩ | ⟨-, out', called, rfl⟩
  · by_cases here : s = c
    · subst here
      rw [Store.setUsi_self]
      rfl
    · rw [Store.setUsi_of_ne _ _ _ here]
  · rw [writes _ _ called s]
    by_cases here : s = c
    · subst here
      rw [Store.setUsi_self]
      split <;> rfl
    · rw [if_neg fun both => here both.1, Store.setUsi_of_ne _ _ _ here]

theorem localSetValue_real (writes : WritesReal io self) : WritesReal io (localSetValue io self) := by
  intro a out ran s
  have written : (io.info a.sid).readonly = false →
      ((a.store.setUsi a.sid ((a.store.usi a.sid).writeSection (io.info a.sid) a.store.clock
        a.value a.sup)).usi s).realValue =
      if s = a.sid ∧ (io.info s).readonly = false then a.value
      else (a.store.usi s).realValue := by
    intro free
    by_cases here : s = a.sid
    · subst here
      rw [Store.setUsi_self, writeSection_realValue, if_pos ⟨rfl, free⟩]
    · rw [Store.setUsi_of_ne _ _ _ here, if_neg fun both => here both.1]
  rcases localSetValue_cases ran with ⟨readonly, rfl⟩ | ⟨free, -, rfl⟩ | ⟨free, -, st, emitted, rfl⟩
  · rw [if_neg]
    rintro ⟨rfl, free⟩
    rw [readonly] at free
    cases free
  · exact written free
  · have kept : (st.usi s).realValue = _ :=
      emitChange_keeps (P := fun st => (st.usi s).realValue = _)
        (fun st c out _ checked same => (checkDepend_real writes checked s).trans same) emitted
        (written free)
    exact kept

theorem dispatch_real (io : IOList) : WritesReal io (dispatch io) :=
  Lib.unroll_induct (fun _ _ ran => nomatch ran) (fun _ writes => localSetValue_real writes) _

/-- The real value after one request, from the one before. -/
def Op.stored (s : ObjectId) (real : Value) : Op → Value
  | .setValue sid value _ => if sid = s then value else real
  | .freezeValue .. | .tick _ => real

/-- **The argument of the last write of a sensor**, its default if there was none. -/
def lastSet (io : IOList) (s : ObjectId) (ops : List Op) : Value :=
  ops.foldl (Op.stored s) (io.info s).defaultVal

theorem Op.apply_real (writes : WritesReal io self) {st' : Store} {op : Op}
    (ran : op.apply io self st = some st') (member : s ∈ io.ids)
    (writable : (io.info s).readonly = false) :
    (st'.usi s).realValue = op.stored s (st.usi s).realValue := by
  have named := (IOList.first_spec member).1
  rcases Op.apply_cases ran with ⟨now, rfl, rfl⟩ | ⟨sid, value, sup, out, rfl, called, rfl⟩ |
    ⟨sid, set, value, sup, out, rfl, -, called, rfl⟩ | ⟨rfl, refused⟩
  · rfl
  · rw [writes _ _ called s, Op.stored]
    by_cases here : sid = s
    · rw [if_pos ⟨here.symm, writable⟩, if_pos here]
    · rw [if_neg fun both => here both.1.symm, if_neg here]
  · rw [writes _ _ called s, Op.stored]
    by_cases here : s = sid
    · subst here
      rw [if_pos ⟨rfl, writable⟩]
    · rw [if_neg fun both => here both.1, Store.setUsi_of_ne _ _ _ here]
  · cases op with
    | setValue sid value sup =>
      have other : sid ≠ s := fun here => refused sid value sup rfl (here ▸ ⟨named, member⟩)
      rw [Op.stored, if_neg other]
    | freezeValue sid set value sup => rfl
    | tick now => rfl

/-! ### Whole runs -/

theorem runOps_real (writes : WritesReal io self) {st' : Store} {ops : List Op}
    (ran : runOps io self st ops = some st') (member : s ∈ io.ids)
    (writable : (io.info s).readonly = false) :
    (st'.usi s).realValue = ops.foldl (Op.stored s) (st.usi s).realValue := by
  induction ops generalizing st with
  | nil =>
    cases ran
    rfl
  | cons op rest ih =>
    obtain ⟨mid, applied, ran⟩ := Option.bind_eq_some_iff.mp ran
    rw [ih ran, Op.apply_real writes applied member writable, List.foldl_cons]

/-- **The visible-value invariant.** On an acyclic 'depend' relation every run completes, and then
every sensor that is not readonly shows the frozen value if it is frozen, else the off value if it
is blocked, else its real value, which is the argument of the last write. -/
theorem visible_value (io : IOList) (acyclic : Lib.Acyclic io.Depends) (now : Timespec)
    (ops : List Op) :
    ∃ st, run io now ops = some st ∧ ∀ s ∈ io.ids, (io.info s).readonly = false →
      (st.usi s).value =
        (if (st.usi s).frozen then (st.usi s).frozenValue
         else if (st.usi s).blocked then (io.info s).dOffValue else (st.usi s).realValue) ∧
      (st.usi s).realValue = lastSet io s ops := by
  obtain ⟨st, ran⟩ := run_isSome acyclic now ops
  refine ⟨st, ran, fun s member writable => ?_⟩
  obtain ⟨-, -, default, ok⟩ := IOList.first_spec member
  obtain ⟨active, activated, served⟩ := Option.bind_eq_some_iff.mp ran
  have okActive : VisibleOk (io.info s) (active.usi s) :=
    activateInit_keeps (P := fun st => VisibleOk (io.info s) (st.usi s))
      (fun _ _ _ _ checked => checkDepend_visible (dispatch_visible io) checked writable)
      (fun _ _ _ inited ok => Option.some.inj inited ▸ ok) (fun _ ok => ok) activated ok
  have realActive : (active.usi s).realValue = (io.info s).defaultVal :=
    activateInit_keeps (P := fun st => (st.usi s).realValue = (io.info s).defaultVal)
      (fun _ _ _ _ checked same => (checkDepend_real (dispatch_real io) checked s).trans same)
      (fun _ _ _ inited same => Option.some.inj inited ▸ same) (fun _ same => same) activated default
  constructor
  · exact runOps_keeps (P := fun st => VisibleOk (io.info s) (st.usi s))
      (fun _ _ _ _ applied => Op.apply_visible (dispatch_visible io) applied writable) served okActive
  · rw [runOps_real (dispatch_real io) served member writable, realActive, lastSet]

/-! ### The dependent pair of the class documentation -/

/-- A discrete input `4` and an analog input `11` that depends on it and shows `-50` while it is
blocked. -/
def dependPair : IOList :=
  IOList.ofRead (rfl : readList ⟨0, 0⟩ []
      [{ id := 4, iotype := "DI" },
       { id := 11, iotype := "AI", depend := some 4, dependOffValue := some (-50) }] = .ok _)
    [11, 4] [4, 11] (by decide) (by decide) 100 fun _ => []

theorem dependPair_acyclic : Lib.Acyclic dependPair.Depends :=
  IOList.acyclic_of_slots Int.toNat (by decide +kernel)

/-- The blocked sensor of the pair stores what is written, and shows it once it is unblocked. -/
theorem visible_value_dependPair : ∃ st, run dependPair ⟨0, 0⟩
      [.setValue 11 7 100, .freezeValue 11 true 3 100, .setValue 4 1 100,
        .freezeValue 11 false 0 100] = some st ∧
    (st.usi 11).value = (if (st.usi 11).frozen then (st.usi 11).frozenValue
      else if (st.usi 11).blocked then (dependPair.info 11).dOffValue
      else (st.usi 11).realValue) ∧ (st.usi 11).realValue = 7 := by
  obtain ⟨st, ran, shows⟩ := visible_value dependPair dependPair_acyclic ⟨0, 0⟩
    [.setValue 11 7 100, .freezeValue 11 true 3 100, .setValue 4 1 100, .freezeValue 11 false 0 100]
  exact ⟨st, ran, shows 11 (by decide +kernel) (by decide +kernel)⟩

end UniSet.Processes.IOController
