/-
**`IOController::setOutputSeq`: one request that writes a list of sensors.**

The loop collects the identifiers that are not in the list of the controller and writes the sensors
that are. The exception of a readonly sensor is not caught: it leaves the loop and the request.

* `setOutputSeq` — the loop.
* `BatchWritten` — what the request is for: the last value of every sensor, and the unknown
  identifiers as the answer.
* `setOutputSeq_free` — a list without a readonly sensor is written to its end.
* `setOutputSeq_refused` — any other list ends with the exception.
* **`setOutputSeq_written_iff`** — the two together.
-/

import UniSet.Processes.VisibleValue

namespace UniSet.Processes.IOController

/-- `OutputInfo`: one element of the request. -/
structure OutputInfo where
  id : ObjectId
  value : Value
deriving DecidableEq, Repr

/-- **The loop of `setOutputSeq`**, of a request that is not cancelled. `ids` is the response so far.
The iterator is handed over, so `localSetValueIt` does not look for the sensor again. -/
def setOutputSeq (io : IOList) (self : LocalSetValue) (supplier : ObjectId) :
    Store → List ObjectId → List OutputInfo → Option (Outcome (List ObjectId))
  | st, ids, [] => some (st, .ok ids)
  | st, ids, s :: rest =>
    if s.id ∈ io.ids then
      match self ⟨st, s.id, s.value, supplierOf io supplier⟩ with
      | none => none
      | some (st', .error ex) => some (st', .error ex)
      | some (st', .ok _) => setOutputSeq io self supplier st' ids rest
    else setOutputSeq io self supplier st (ids ++ [s.id]) rest

/-- The list names no readonly sensor of the controller. -/
def AllWritable (io : IOList) (list : List OutputInfo) : Prop :=
  ∀ s ∈ list, s.id ∈ io.ids → (io.info s.id).readonly = false

/-- The identifiers of the list that the controller does not know, in order. -/
def unknownIds (io : IOList) (list : List OutputInfo) : List ObjectId :=
  (list.map OutputInfo.id).filter fun sid => decide (sid ∉ io.ids)

/-- **The request has done its work.** -/
structure BatchWritten (io : IOList) (st : Store) (list : List OutputInfo)
    (out : Outcome (List ObjectId)) : Prop where
  /-- A sensor stores the last value the list gives it. -/
  written : ∀ before s after, list = before ++ s :: after → (∀ later ∈ after, later.id ≠ s.id) →
    s.id ∈ io.ids → (io.info s.id).readonly = false → (out.1.usi s.id).realValue = s.value
  /-- A sensor that is not in the list keeps its value. -/
  kept : ∀ sid, (∀ s ∈ list, s.id ≠ sid) → (out.1.usi sid).realValue = (st.usi sid).realValue
  response : out.2 = .ok (unknownIds io list)

variable {io : IOList} {self : LocalSetValue} {supplier : ObjectId}

/-! ### The answer of one write -/

/-- A call throws exactly on a readonly sensor. -/
def RefusesReadonly (io : IOList) (self : LocalSetValue) : Prop :=
  ∀ a out, self a = some out →
    ((io.info a.sid).readonly = false → ∃ v, out.2 = .ok v) ∧
      ((io.info a.sid).readonly = true → ∃ ex, out.2 = .error ex)

theorem localSetValue_refusesReadonly : RefusesReadonly io (localSetValue io self) := by
  intro a out ran
  rcases localSetValue_cases ran with ⟨readonly, rfl⟩ | ⟨free, -, rfl⟩ | ⟨free, -, st, -, rfl⟩
  · exact ⟨fun free => Bool.noConfusion (readonly.symm.trans free), fun _ => ⟨_, rfl⟩⟩
  · exact ⟨fun _ => ⟨_, rfl⟩, fun readonly => Bool.noConfusion (readonly.symm.trans free)⟩
  · exact ⟨fun _ => ⟨_, rfl⟩, fun readonly => Bool.noConfusion (readonly.symm.trans free)⟩

theorem dispatch_refusesReadonly (io : IOList) : RefusesReadonly io (dispatch io) :=
  localSetValue_refusesReadonly

/-! ### The whole list -/

/-- The real value of `sid` after one element, from the one before. -/
def OutputInfo.stored (io : IOList) (sid : ObjectId) (real : Value) (s : OutputInfo) : Value :=
  if s.id = sid ∧ s.id ∈ io.ids then s.value else real

variable {list : List OutputInfo} {out : Outcome (List ObjectId)}

theorem foldl_stored_of_ne {sid : ObjectId} (real : Value) (other : ∀ s ∈ list, s.id ≠ sid) :
    list.foldl (OutputInfo.stored io sid) real = real := by
  induction list with
  | nil => rfl
  | cons s rest ih =>
    have first : OutputInfo.stored io sid real s = real :=
      if_neg fun both => other s List.mem_cons_self both.1
    rw [List.foldl_cons, first, ih fun later member => other later (List.mem_cons_of_mem s member)]

/-- **What one element does**: a readonly sensor ends the request, any other element is written or
put into the response. -/
theorem setOutputSeq_cons (writes : WritesReal io self) (refuses : RefusesReadonly io self)
    {st : Store} {ids : List ObjectId} {s : OutputInfo} {rest : List OutputInfo}
    (ran : setOutputSeq io self supplier st ids (s :: rest) = some out) :
    (s.id ∈ io.ids ∧ (io.info s.id).readonly = true ∧ (∃ ex, out.2 = .error ex) ∧
      ∀ sid, (out.1.usi sid).realValue = (st.usi sid).realValue) ∨
    ((s.id ∈ io.ids → (io.info s.id).readonly = false) ∧
      ∃ st' ids', setOutputSeq io self supplier st' ids' rest = some out ∧
        ids' ++ unknownIds io rest = ids ++ unknownIds io (s :: rest) ∧
        ∀ sid, (st'.usi sid).realValue = s.stored io sid (st.usi sid).realValue) := by
  rw [setOutputSeq] at ran
  by_cases known : s.id ∈ io.ids
  · rw [if_pos known] at ran
    have listed : unknownIds io (s :: rest) = unknownIds io rest := by simp [unknownIds, known]
    cases called : self ⟨st, s.id, s.value, supplierOf io supplier⟩ with
    | none =>
      rw [called] at ran
      cases ran
    | some mid =>
      have real := writes _ _ called
      obtain ⟨answers, throws⟩ := refuses _ _ called
      obtain ⟨st', answer⟩ := mid
      rw [called] at ran
      cases access : (io.info s.id).readonly with
      | true =>
        obtain ⟨ex, thrown⟩ := throws access
        cases thrown
        cases ran
        refine .inl ⟨known, rfl, ⟨ex, rfl⟩, fun sid => ?_⟩
        rw [real sid, if_neg]
        rintro ⟨rfl, writable⟩
        rw [access] at writable
        cases writable
      | false =>
        obtain ⟨v, ok⟩ := answers access
        cases ok
        refine .inr ⟨fun _ => rfl, st', ids, ran, by rw [listed], fun sid => ?_⟩
        rw [real sid, OutputInfo.stored]
        by_cases here : sid = s.id
        · subst here
          rw [if_pos ⟨rfl, access⟩, if_pos ⟨rfl, known⟩]
        · rw [if_neg fun both => here both.1, if_neg fun both => here both.1.symm]
  · rw [if_neg known] at ran
    have listed : unknownIds io (s :: rest) = s.id :: unknownIds io rest := by
      simp [unknownIds, known]
    refine .inr ⟨fun member => absurd member known, st, ids ++ [s.id], ran, ?_, fun sid => ?_⟩
    · rw [listed, List.append_assoc, List.singleton_append]
    · rw [OutputInfo.stored, if_neg fun both => known both.2]

/-- **A list without a readonly sensor is written to its end.** -/
theorem setOutputSeq_free (writes : WritesReal io self) (refuses : RefusesReadonly io self)
    {st : Store} {ids : List ObjectId} (ran : setOutputSeq io self supplier st ids list = some out)
    (free : AllWritable io list) :
    out.2 = .ok (ids ++ unknownIds io list) ∧
      ∀ sid, (out.1.usi sid).realValue =
        list.foldl (OutputInfo.stored io sid) (st.usi sid).realValue := by
  induction list generalizing st ids with
  | nil =>
    cases ran
    exact ⟨congrArg _ (List.append_nil ids).symm, fun sid => rfl⟩
  | cons s rest ih =>
    obtain ⟨first, restFree⟩ := List.forall_mem_cons.mp free
    rcases setOutputSeq_cons writes refuses ran with ⟨known, readonly, -⟩ |
      ⟨-, st', ids', ran, listed, stored⟩
    · rw [first known] at readonly
      cases readonly
    · obtain ⟨response, real⟩ := ih ran restFree
      refine ⟨response.trans (congrArg _ listed), fun sid => ?_⟩
      rw [real sid, stored sid, List.foldl_cons]

/-- **Any other list is written up to its first readonly sensor**, whose exception ends the
request: nothing behind it is written, and there is no response. -/
theorem setOutputSeq_refused (writes : WritesReal io self) (refuses : RefusesReadonly io self)
    {st : Store} {ids : List ObjectId} (ran : setOutputSeq io self supplier st ids list = some out)
    (readonly : ¬ AllWritable io list) :
    (∃ ex, out.2 = .error ex) ∧
      ∃ before s after, list = before ++ s :: after ∧ AllWritable io before ∧
        s.id ∈ io.ids ∧ (io.info s.id).readonly = true ∧
        ∀ sid, (out.1.usi sid).realValue =
          before.foldl (OutputInfo.stored io sid) (st.usi sid).realValue := by
  induction list generalizing st ids with
  | nil => exact absurd (fun s member => nomatch member) readonly
  | cons s rest ih =>
    rcases setOutputSeq_cons writes refuses ran with ⟨known, closed, thrown, real⟩ |
      ⟨first, st', ids', ran, -, stored⟩
    · exact ⟨thrown, [], s, rest, rfl, (fun s member => nomatch member), known, closed, real⟩
    · obtain ⟨thrown, before, r, after, split, free, known, closed, real⟩ :=
        ih ran fun restFree => readonly (List.forall_mem_cons.mpr ⟨first, restFree⟩)
      refine ⟨thrown, s :: before, r, after, congrArg _ split,
        List.forall_mem_cons.mpr ⟨first, free⟩, known, closed, fun sid => ?_⟩
      rw [real sid, stored sid, List.foldl_cons]

theorem setOutputSeq_isSome (returns : ∀ a, (self a).isSome) (st : Store) (ids : List ObjectId)
    (list : List OutputInfo) : (setOutputSeq io self supplier st ids list).isSome := by
  induction list generalizing st ids with
  | nil => rfl
  | cons s rest ih =>
    rw [setOutputSeq]
    split
    · split
      · rename_i stuck
        exact absurd (returns ⟨st, s.id, s.value, supplierOf io supplier⟩) (by rw [stuck]; decide)
      · rfl
      · exact ih _ _
    · exact ih _ _

/-- **The request does its work exactly if the list names no readonly sensor.** -/
theorem setOutputSeq_written_iff (io : IOList) (acyclic : Lib.Acyclic io.Depends)
    (supplier : ObjectId) (st : Store) (list : List OutputInfo) :
    ∃ out, setOutputSeq io (dispatch io) supplier st [] list = some out ∧
      (BatchWritten io st list out ↔ AllWritable io list) := by
  have returns : (setOutputSeq io (dispatch io) supplier st [] list).isSome :=
    setOutputSeq_isSome (dispatch_isSome acyclic) st [] list
  obtain ⟨out, ran⟩ := Option.isSome_iff_exists.mp returns
  refine ⟨out, ran, fun done => ?_, fun free => ?_⟩
  · by_contra readonly
    obtain ⟨⟨ex, thrown⟩, -⟩ :=
      setOutputSeq_refused (dispatch_real io) (dispatch_refusesReadonly io) ran readonly
    have response := done.response
    rw [thrown] at response
    cases response
  · obtain ⟨response, real⟩ :=
      setOutputSeq_free (dispatch_real io) (dispatch_refusesReadonly io) ran free
    refine ⟨fun before s after split last known writable => ?_, fun sid other => ?_, response⟩
    · rw [real s.id, split, List.foldl_append, List.foldl_cons, foldl_stored_of_ne _ last,
        OutputInfo.stored, if_pos ⟨rfl, known⟩]
    · rw [real sid, foldl_stored_of_ne _ other]

/-- A list with a repetition and an unknown sensor, for the pair of an input and what depends on
it. -/
theorem setOutputSeq_written_iff_dependPair :
    ∃ out, setOutputSeq dependPair (dispatch dependPair) 100 (loaded dependPair ⟨0, 0⟩) []
        [⟨11, 7⟩, ⟨99, 5⟩, ⟨4, 1⟩, ⟨11, 8⟩] = some out ∧
      BatchWritten dependPair (loaded dependPair ⟨0, 0⟩)
        [⟨11, 7⟩, ⟨99, 5⟩, ⟨4, 1⟩, ⟨11, 8⟩] out := by
  obtain ⟨out, ran, done⟩ := setOutputSeq_written_iff dependPair dependPair_acyclic 100
    (loaded dependPair ⟨0, 0⟩) [⟨11, 7⟩, ⟨99, 5⟩, ⟨4, 1⟩, ⟨11, 8⟩]
  refine ⟨out, ran, done.mpr fun s _ known => ?_⟩
  have listed : s.id = 11 ∨ s.id = 4 := by simpa [dependPair, IOList.ofRead] using known
  rcases listed with same | same
  · rw [same]
    decide +kernel
  · rw [same]
    decide +kernel

/-- An input `1`, and an input `2` that is readonly. -/
def readonlyPair : IOList :=
  IOList.ofRead (rfl : readList ⟨0, 0⟩ []
      [{ id := 1, iotype := "AI" }, { id := 2, iotype := "AI", readonly := 1 }] = .ok _)
    [1, 2] [1, 2] (by decide) (by decide) 100 fun _ => []

/-- **A readonly sensor takes the rest of the list with it.** The sensor `1` behind it is ordinary
and keeps its value. -/
theorem readonly_ends_setOutputSeq : Lib.Acyclic readonlyPair.Depends ∧
    ∃ out, setOutputSeq readonlyPair (dispatch readonlyPair) 100 (loaded readonlyPair ⟨0, 0⟩) []
        [⟨2, 5⟩, ⟨1, 7⟩] = some out ∧ (out.1.usi 1).realValue = 0 ∧
      ¬ BatchWritten readonlyPair (loaded readonlyPair ⟨0, 0⟩) [⟨2, 5⟩, ⟨1, 7⟩] out := by
  refine ⟨IOList.acyclic_of_slots Int.toNat (by decide +kernel), ?_⟩
  have ran : (setOutputSeq readonlyPair (dispatch readonlyPair) 100 (loaded readonlyPair ⟨0, 0⟩) []
      [⟨2, 5⟩, ⟨1, 7⟩]).map (fun out => (out.1.usi 1).realValue) = some 0 := by decide +kernel
  obtain ⟨out, ran, same⟩ := Option.map_eq_some_iff.mp ran
  refine ⟨out, ran, same, fun done => ?_⟩
  have stored := done.written [⟨2, 5⟩] ⟨1, 7⟩ [] rfl (by simp) (by decide +kernel)
    (by decide +kernel)
  rw [same] at stored
  exact absurd stored (by decide)

end UniSet.Processes.IOController
