/-
**What polling and messages do to a lamp.**

* `IOInfo.static`, `State.config` — what polling and messages leave of an item.
* `Frame` — what every step leaves of the state.
* **`iopoll_lamp`**: polling with `force_out` moves a lamp to the list of the value it reads.
* **`changes_lamp`**: without `force_out` messages move it to the list of the last value, unless they
  all repeat the blinking value it has.
-/

import Mathlib.Data.List.Nodup
import UniSet.IOControl.Control

namespace UniSet.IOControl

open ModbusMaster (ObjectId IOType)

/-! ### What stays of an item -/

/-- The item without what polling and messages change. -/
def IOInfo.static (it : IOInfo) : IOInfo := { it with toIOBase := it.toIOBase.withState 0 [] id }

variable {it it' : IOInfo} {s : State} {j : Nat}

theorem IOInfo.static_of_same {base : IOBase} (same : it.toIOBase.SameItem base) :
    IOInfo.static { it with toIOBase := base } = it.static := by
  rw [IOBase.SameItem] at same
  rw [static, same]
  rfl

/-- Every sensor has one item. -/
def UniqueIds (iomap : List IOInfo) : Prop := (iomap.map fun it => it.si.id).Nodup

/-- **The configuration of the items.** -/
def State.config (s : State) : List IOInfo := s.iomap.map IOInfo.static

theorem uniqueIds_config : UniqueIds s.config ↔ UniqueIds s.iomap := by
  unfold UniqueIds State.config
  rw [List.map_map]
  exact Iff.rfl

theorem UniqueIds.eq {iomap : List IOInfo} (unique : UniqueIds iomap) {i : Nat}
    (hi : iomap[i]? = some it) (hj : iomap[j]? = some it') (same : it.si.id = it'.si.id) :
    i = j := by
  obtain ⟨lt, -⟩ := List.getElem?_eq_some_iff.mp hi
  refine (List.getElem?_inj (by rwa [List.length_map]) unique).mp ?_
  rw [List.getElem?_map, List.getElem?_map, hi, hj, Option.map_some, Option.map_some, same]

theorem UniqueIds.findIdx {iomap : List IOInfo} (unique : UniqueIds iomap) {i : Nat}
    (hi : iomap[i]? = some it) : (iomap.findIdx? fun x => x.si.id = it.si.id) = some i := by
  cases found : iomap.findIdx? fun x => x.si.id = it.si.id with
  | none =>
    rw [List.findIdx?_eq_none_iff] at found
    have away := found it (List.mem_of_getElem? hi)
    simp at away
  | some j =>
    obtain ⟨ltJ, hit, -⟩ := List.findIdx?_eq_some_iff_getElem.mp found
    have same := unique.eq (List.getElem?_eq_getElem ltJ) hi (of_decide_eq_true hit)
    rw [same]

theorem config_setItem {i : Nat} (hit : s.iomap[i]? = some it) (same : it'.static = it.static) :
    (s.setItem i it').config = s.config := by
  unfold State.config State.setItem
  refine List.ext_getElem? fun j => ?_
  show ((s.iomap.set i it').map IOInfo.static)[j]? = _
  rw [List.getElem?_map, List.getElem?_map, List.getElem?_set]
  split
  · next here =>
    subst here
    split
    · rw [hit, Option.map_some, Option.map_some, same]
    · next out =>
      rw [List.getElem?_eq_none (Nat.le_of_not_lt out)]
  · rfl

theorem static_of_config {t : State} (same : t.config = s.config) {i : Nat}
    (hit : t.iomap[i]? = some it) : ∃ it', s.iomap[i]? = some it' ∧ it.static = it'.static := by
  have h : t.config[i]? = s.config[i]? := by rw [same]
  unfold State.config at h
  rw [List.getElem?_map, List.getElem?_map, hit, Option.map_some] at h
  obtain ⟨it', hit', hsame⟩ := Option.map_eq_some_iff.mp h.symm
  exact ⟨it', hit', hsame.symm⟩

/-- The values for a sensor. -/
def valuesOf (id : ObjectId) (changes : List (ObjectId × Int)) : List Int :=
  (changes.filter fun e => e.1 = id).map Prod.snd

theorem valuesOf_cons_self (id : ObjectId) (v : Int) (rest : List (ObjectId × Int)) :
    valuesOf id ((id, v) :: rest) = v :: valuesOf id rest := by simp [valuesOf]

theorem valuesOf_cons_ne {id id' : ObjectId} (other : id' ≠ id) (v : Int)
    (rest : List (ObjectId × Int)) : valuesOf id ((id', v) :: rest) = valuesOf id rest := by
  simp [valuesOf, other]

/-! ### Frames -/

/-- **What reads and messages leave**: the configuration, the lists without repetition and the trigger
of the test. -/
structure Frame (s t : State) : Prop where
  config : t.config = s.config
  good : s.lists.Good → t.lists.Good
  trTestLamp : t.trTestLamp = s.trTestLamp

theorem Frame.refl (s : State) : Frame s s := ⟨rfl, id, rfl⟩

theorem Frame.trans {t u : State} (h : Frame s t) (h' : Frame t u) : Frame s u :=
  ⟨h'.config.trans h.config, fun good => h'.good (h.good good), h'.trTestLamp.trans h.trTestLamp⟩

theorem Frame.unique {t : State} (frame : Frame s t) (unique : UniqueIds s.iomap) :
    UniqueIds t.iomap := by
  rw [← uniqueIds_config, frame.config, uniqueIds_config]
  exact unique

theorem Frame.setItem {i : Nat} (hit : s.iomap[i]? = some it) (same : it'.static = it.static) :
    Frame s (s.setItem i it') :=
  ⟨config_setItem hit same, id, rfl⟩

section Steps

variable {c : Config} {s : State} {i j : Nat} {it : IOInfo} (input : Int)

theorem getElem?_setItem_ne (other : j ≠ i) (it' : IOInfo) :
    (s.setItem i it').iomap[j]? = s.iomap[j]? :=
  List.getElem?_set_ne (Ne.symm other)

theorem getElem?_setItem_self (hit : s.iomap[i]? = some it) (it' : IOInfo) :
    (s.setItem i it').iomap[i]? = some it' := by
  obtain ⟨lt, -⟩ := List.getElem?_eq_some_iff.mp hit
  exact List.getElem?_set_self lt

/-- A channel that is no analog lamp: only its item, SharedMemory and the flag of the test change. -/
theorem ioread_plain (hit : s.iomap[i]? = some it) (plain : it.stype = .AO → it.lamp = false) :
    ∃ base : IOBase, it.toIOBase.SameItem base ∧
      (s.ioread c i input).iomap = (s.setItem i { it with toIOBase := base }).iomap ∧
      (s.ioread c i input).lists = s.lists ∧
      (s.ioread c i input).trTestLamp = s.trTestLamp ∧
      (s.ioread c i input).testmode = s.testmode ∧
      ∀ id ≠ it.si.id, (s.ioread c i input).sm id = s.sm id := by
  have unread : s.iomap = (s.setItem i { it with toIOBase := it.toIOBase }).iomap := by
    refine List.ext_getElem? fun j => ?_
    by_cases here : j = i
    · rw [here, getElem?_setItem_self hit, hit]
    · rw [getElem?_setItem_ne here]
  unfold State.ioread
  rw [hit]
  dsimp only
  split
  · cases hs : it.stype with
    | AI =>
      exact ⟨_, IOBase.processingAsAI_sameItem _ _ _ _, rfl, rfl, rfl, rfl,
        fun id other => IOBase.processingAsAI_frame _ _ _ _ other⟩
    | DI =>
      exact ⟨_, IOBase.processingAsDI_sameItem _ _ _ _, rfl, rfl, rfl, rfl,
        fun id other => IOBase.processingAsDI_frame _ _ _ _ other⟩
    | DO => exact ⟨_, IOBase.refresh_sameItem _ _ _, rfl, rfl, rfl, rfl, fun _ _ => rfl⟩
    | AO =>
      rw [plain hs]
      exact ⟨_, IOBase.refresh_sameItem _ _ _, rfl, rfl, rfl, rfl, fun _ _ => rfl⟩
  · exact ⟨it.toIOBase, IOBase.SameItem.refl _, unread, rfl, rfl, rfl, fun _ _ => rfl⟩

/-- **Reading an analog lamp.** -/
theorem ioread_lamp (hit : s.iomap[i]? = some it) (ao : it.stype = .AO) (lamp : it.lamp = true) :
    s.ioread c i input =
      if it.readable c s.testmode = true ∧ c.forceOut = true then
        { s.setItem i (it.withValue (s.sm it.si.id)) with
          lists := pollLists i it.value (s.sm it.si.id) s.lists }
      else s := by
  unfold State.ioread
  rw [hit]
  dsimp only
  rw [ao, lamp]
  unfold State.readLamp
  split_ifs <;> simp_all

theorem ioread_frame : Frame s (s.ioread c i input) ∧
    (s.ioread c i input).testmode = s.testmode := by
  cases hit : s.iomap[i]? with
  | none =>
    have same : s.ioread c i input = s := by
      unfold State.ioread
      rw [hit]
    rw [same]
    exact ⟨Frame.refl s, rfl⟩
  | some it =>
    by_cases lamp : it.stype = .AO ∧ it.lamp = true
    · rw [ioread_lamp input hit lamp.1 lamp.2]
      split
      · exact ⟨⟨config_setItem hit rfl, pollLists_good, rfl⟩, rfl⟩
      · exact ⟨Frame.refl s, rfl⟩
    · have plain : it.stype = .AO → it.lamp = false := fun ao =>
        Bool.eq_false_iff.mpr fun h => lamp ⟨ao, h⟩
      obtain ⟨base, same, items, lists, tr, mode, -⟩ := ioread_plain (c := c) input hit plain
      refine ⟨⟨?_, fun good => lists ▸ good, tr⟩, mode⟩
      have kept := config_setItem hit (IOInfo.static_of_same same)
      unfold State.config at kept ⊢
      rw [items, kept]

/-- Reading one channel leaves the items and the marks of the others. -/
theorem ioread_ne (good : s.lists.Good) (other : j ≠ i) :
    (s.ioread c i input).iomap[j]? = s.iomap[j]? ∧
      (s.ioread c i input).lists.marks j = s.lists.marks j := by
  cases hit : s.iomap[i]? with
  | none =>
    have same : s.ioread c i input = s := by
      unfold State.ioread
      rw [hit]
    rw [same]
    exact ⟨rfl, rfl⟩
  | some it =>
    by_cases lamp : it.stype = .AO ∧ it.lamp = true
    · rw [ioread_lamp input hit lamp.1 lamp.2]
      split
      · exact ⟨getElem?_setItem_ne other _, pollLists_ne good other⟩
      · exact ⟨rfl, rfl⟩
    · have plain : it.stype = .AO → it.lamp = false := fun ao =>
        Bool.eq_false_iff.mpr fun h => lamp ⟨ao, h⟩
      obtain ⟨base, -, items, lists, -, -, -⟩ := ioread_plain (c := c) input hit plain
      rw [items, lists]
      exact ⟨getElem?_setItem_ne other _, rfl⟩

/-- Polling writes no sensor of an analog lamp. -/
theorem ioread_sm (unique : UniqueIds s.iomap) (hit : s.iomap[i]? = some it) (ao : it.stype = .AO)
    (lamp : it.lamp = true) (j : Nat) : (s.ioread c j input).sm it.si.id = s.sm it.si.id := by
  cases hj : s.iomap[j]? with
  | none =>
    unfold State.ioread
    rw [hj]
  | some it' =>
    by_cases lamp' : it'.stype = .AO ∧ it'.lamp = true
    · rw [ioread_lamp input hj lamp'.1 lamp'.2]
      split
      · rfl
      · rfl
    · have plain : it'.stype = .AO → it'.lamp = false := fun ao =>
        Bool.eq_false_iff.mpr fun h => lamp' ⟨ao, h⟩
      obtain ⟨-, -, -, -, -, -, sm⟩ := ioread_plain (c := c) input hj plain
      refine sm _ fun same => lamp' ?_
      have here := unique.eq hit hj same
      subst here
      rw [hit] at hj
      cases hj
      exact ⟨ao, lamp⟩

end Steps

/-! ### Polling -/

section Polling

variable {c : Config} (inputs : Nat → Int) {i : Nat} {it : IOInfo}

theorem reads_frame (places : List (Nat × Nat)) (s : State) :
    Frame s (s.reads c inputs places) ∧ (s.reads c inputs places).testmode = s.testmode := by
  induction places generalizing s with
  | nil => exact ⟨Frame.refl s, rfl⟩
  | cons place rest ih =>
    obtain ⟨frame, mode⟩ := ioread_frame (c := c) (s := s) (i := place.1) (inputs place.2)
    obtain ⟨frameRest, modeRest⟩ := ih (s.ioread c place.1 (inputs place.2))
    exact ⟨frame.trans frameRest, modeRest.trans mode⟩

theorem iopoll_frame (s : State) : Frame s (s.iopoll c inputs) := by
  unfold State.iopoll
  split
  · exact Frame.refl s
  · exact (reads_frame inputs _ s).1

/-- The value of a lamp behind some reads. -/
def readValue (c : Config) (s : State) (it : IOInfo) (read : Prop) [Decidable read] : Int :=
  if read ∧ it.readable c s.testmode = true ∧ c.forceOut = true then s.sm it.si.id else it.value

theorem readValue_unread (unread : ¬ (it.readable c s.testmode = true ∧ c.forceOut = true))
    (read : Prop) [Decidable read] : readValue c s it read = it.value := by
  unfold readValue
  rw [if_neg fun h => unread h.2]

/-- **The read that moves an analog lamp**, or one that finds it moved. -/
theorem ioread_moves (here : i = j) (input : Int) (good : s.lists.Good)
    (hit : s.iomap[i]? = some it) (ao : it.stype = .AO) (lamp : it.lamp = true)
    (value : LampValue (s.sm it.si.id))
    (read : it.readable c s.testmode = true ∧ c.forceOut = true) :
    (s.ioread c j input).iomap[i]? = some (it.withValue (s.sm it.si.id)) ∧
      (s.ioread c j input).lists.marks i =
        if Steady it.value (s.sm it.si.id) then s.lists.marks i else belongs (s.sm it.si.id) := by
  subst here
  rw [ioread_lamp (c := c) input hit ao lamp, if_pos read]
  exact ⟨getElem?_setItem_self hit _, pollLists_marks good value⟩

/-- **What reads do to an analog lamp**: the first one moves it, the others find it moved. -/
theorem reads_lamp (places : List (Nat × Nat)) (good : s.lists.Good) (unique : UniqueIds s.iomap)
    (hit : s.iomap[i]? = some it) (ao : it.stype = .AO) (lamp : it.lamp = true)
    (value : LampValue (s.sm it.si.id)) :
    (s.reads c inputs places).iomap[i]? =
        some (it.withValue (readValue c s it (i ∈ places.map Prod.fst))) ∧
      (s.reads c inputs places).lists.marks i =
        (if Steady it.value (readValue c s it (i ∈ places.map Prod.fst)) then s.lists.marks i
        else belongs (readValue c s it (i ∈ places.map Prod.fst))) ∧
      (s.reads c inputs places).sm it.si.id = s.sm it.si.id := by
  induction places generalizing s it with
  | nil =>
    have still : readValue c s it (i ∈ ([] : List (Nat × Nat)).map Prod.fst) = it.value := by
      unfold readValue
      simp
    rw [still]
    have steady : Steady it.value it.value := Or.inl rfl
    rw [if_pos steady]
    exact ⟨hit, rfl, rfl⟩
  | cons place rest ih =>
    obtain ⟨frame, mode⟩ := ioread_frame (c := c) (s := s) (i := place.1) (inputs place.2)
    have unique' := frame.unique unique
    have sm := ioread_sm (c := c) (inputs place.2) unique hit ao lamp place.1
    show ((s.ioread c place.1 (inputs place.2)).reads c inputs rest).iomap[i]? = _ ∧
      ((s.ioread c place.1 (inputs place.2)).reads c inputs rest).lists.marks i = _ ∧
      ((s.ioread c place.1 (inputs place.2)).reads c inputs rest).sm it.si.id = _
    by_cases here : i = place.1
    · have listed : i ∈ (place :: rest).map Prod.fst := by simp [here]
      by_cases read : it.readable c s.testmode = true ∧ c.forceOut = true
      · have seen : readValue c s it (i ∈ (place :: rest).map Prod.fst) = s.sm it.si.id := by
          unfold readValue
          rw [if_pos ⟨listed, read⟩]
        obtain ⟨item, marked⟩ := ioread_moves here (inputs place.2) good hit ao lamp value read
        obtain ⟨item', marks', sm'⟩ := ih (frame.good good) unique' item ao lamp (sm.symm ▸ value)
        have again : readValue c (s.ioread c place.1 (inputs place.2))
            (it.withValue (s.sm it.si.id)) (i ∈ rest.map Prod.fst) = s.sm it.si.id := by
          unfold readValue
          split
          · exact sm
          · rfl
        rw [again] at item' marks'
        have steady : Steady (it.withValue (s.sm it.si.id)).value (s.sm it.si.id) := Or.inl rfl
        rw [if_pos steady] at marks'
        rw [seen]
        exact ⟨item', marks'.trans marked, sm'.trans sm⟩
      · -- the channel is not read
        have step := ioread_lamp (c := c) (inputs place.2) (here ▸ hit) ao lamp
        rw [if_neg read] at step
        rw [step]
        obtain ⟨item', marks', sm'⟩ := ih good unique hit ao lamp value
        rw [readValue_unread read] at item' marks'
        rw [readValue_unread read]
        exact ⟨item', marks', sm'⟩
    · obtain ⟨item, marked⟩ := ioread_ne (c := c) (inputs place.2) good here
      obtain ⟨item', marks', sm'⟩ :=
        ih (frame.good good) unique' (item.trans hit) ao lamp (sm.symm ▸ value)
      have same : readValue c (s.ioread c place.1 (inputs place.2)) it (i ∈ rest.map Prod.fst) =
          readValue c s it (i ∈ (place :: rest).map Prod.fst) := by
        have mem : i ∈ (place :: rest).map Prod.fst ↔ i ∈ rest.map Prod.fst := by
          rw [List.map_cons, List.mem_cons]
          exact ⟨fun h => h.resolve_left here, Or.inr⟩
        unfold readValue
        rw [mode, sm]
        exact if_congr (and_congr_left' mem.symm) rfl rfl
      rw [same, marked] at marks'
      rw [same] at item'
      exact ⟨item', marks', sm'.trans sm⟩

/-- Reads leave the marks of an output that is no analog lamp. -/
theorem reads_discrete (places : List (Nat × Nat)) (good : s.lists.Good)
    (hit : s.iomap[i]? = some it) (do' : it.stype = .DO) :
    (s.reads c inputs places).lists.marks i = s.lists.marks i := by
  induction places generalizing s it with
  | nil => rfl
  | cons place rest ih =>
    obtain ⟨frame, -⟩ := ioread_frame (c := c) (s := s) (i := place.1) (inputs place.2)
    show ((s.ioread c place.1 (inputs place.2)).reads c inputs rest).lists.marks i = _
    by_cases here : i = place.1
    · have plain : it.stype = .AO → it.lamp = false := fun ao => by rw [do'] at ao; cases ao
      obtain ⟨base, same, items, lists, -, -, -⟩ :=
        ioread_plain (c := c) (inputs place.2) (here ▸ hit) plain
      have item : (s.ioread c place.1 (inputs place.2)).iomap[i]? =
          some { it with toIOBase := base } := by
        rw [items, here]
        exact getElem?_setItem_self (here ▸ hit) _
      have stype : base.stype = .DO := by
        rw [IOBase.SameItem] at same
        rw [same]
        exact do'
      rw [ih (frame.good good) item stype, lists]
    · obtain ⟨item, marked⟩ := ioread_ne (c := c) (inputs place.2) good here
      rw [ih (frame.good good) (item.trans hit) do', marked]

/-- Every channel that is not ignored is polled. -/
theorem mem_mainOrder {items : List (IOInfo × Nat)} {again : Bool} (hmem : (it, i) ∈ items)
    (polled : it.ignore = false) : i ∈ State.mainOrder c again items := by
  induction items generalizing again with
  | nil => cases hmem
  | cons item rest ih =>
    obtain ⟨it', j⟩ := item
    unfold State.mainOrder
    rcases List.mem_cons.mp hmem with same | later
    · cases same
      rw [polled]
      split
      · next h => cases h
      · split
        · exact List.mem_cons_self
        · exact List.mem_cons_self
    · split
      · exact ih later
      · split
        · exact List.mem_cons_of_mem _ (List.mem_append_right _ (ih later))
        · exact List.mem_cons_of_mem _ (ih later)

/-- **The value of a lamp after polling.** -/
def polledValue (c : Config) (s : State) (it : IOInfo) : Int :=
  if c.forceOut = true ∧ s.testmode ≠ tmOffPoll ∧ it.readable c s.testmode = true then
    s.sm it.si.id
  else it.value

/-- **What polling does to an analog lamp.** -/
theorem iopoll_lamp (good : s.lists.Good) (unique : UniqueIds s.iomap) (hit : s.iomap[i]? = some it)
    (ao : it.stype = .AO) (lamp : it.lamp = true) (value : LampValue (s.sm it.si.id)) :
    (s.iopoll c inputs).iomap[i]? = some (it.withValue (polledValue c s it)) ∧
      (s.iopoll c inputs).lists.marks i =
        (if Steady it.value (polledValue c s it) then s.lists.marks i
        else belongs (polledValue c s it)) ∧
      (s.iopoll c inputs).sm it.si.id = s.sm it.si.id := by
  unfold State.iopoll
  split
  · next off =>
    have still : polledValue c s it = it.value := by
      unfold polledValue
      rw [if_neg fun h => h.2.1 off]
    rw [still]
    have steady : Steady it.value it.value := Or.inl rfl
    rw [if_pos steady]
    exact ⟨hit, rfl, rfl⟩
  · next on =>
    obtain ⟨item, marks, sm⟩ :=
      reads_lamp (c := c) inputs (s.pollOrder c).zipIdx good unique hit ao lamp value
    have same : readValue c s it (i ∈ (s.pollOrder c).zipIdx.map Prod.fst) = polledValue c s it := by
      unfold readValue polledValue
      by_cases read : it.readable c s.testmode = true
      · have polled : it.ignore = false := by
          unfold IOInfo.readable at read
          simp only [Bool.and_eq_true, Bool.not_eq_true'] at read
          exact read.1.1.1.1.1
        have listed : i ∈ s.pollOrder c := by
          refine List.mem_append_left _ (List.mem_append_right _ (mem_mainOrder ?_ polled))
          exact List.mem_zipIdx_iff_getElem?.mpr hit
        simp [listed, on, read]
      · simp [read]
    rw [same] at item marks
    exact ⟨item, marks, sm⟩

end Polling

/-! ### Messages -/

section Messages

variable {c : Config} {s : State} {i : Nat} {it : IOInfo} {id : ObjectId} {v : Int}

theorem testInfo_eq (c : Config) (s : State) (id : ObjectId) (v : Int) :
    ∃ mode, s.testInfo c id v =
      { s with
        isTestLamp := if c.testLampS = some id then decide (v ≠ 0) else s.isTestLamp
        testmode := mode } := by
  unfold State.testInfo
  split
  · exact ⟨s.testmode, rfl⟩
  · split
    · exact ⟨v, rfl⟩
    · exact ⟨s.testmode, rfl⟩

theorem sensorInfo_found (notForced : c.forceOut = false)
    (found : (s.iomap.findIdx? fun x => x.si.id = id) = some j) (hj : s.iomap[j]? = some it') :
    s.sensorInfo c id v = (s.testInfo c id v).itemInfo j it' v := by
  unfold State.sensorInfo
  rw [notForced, if_neg Bool.false_ne_true, found]
  dsimp only
  rw [hj]

theorem sensorInfo_none (notForced : c.forceOut = false)
    (found : (s.iomap.findIdx? fun x => x.si.id = id) = none) :
    s.sensorInfo c id v = s.testInfo c id v := by
  unfold State.sensorInfo
  rw [notForced, if_neg Bool.false_ne_true, found]

theorem findIdx_some (found : (s.iomap.findIdx? fun x => x.si.id = id) = some j) :
    ∃ it', s.iomap[j]? = some it' ∧ it'.si.id = id := by
  obtain ⟨ltJ, hit, -⟩ := List.findIdx?_eq_some_iff_getElem.mp found
  exact ⟨_, List.getElem?_eq_getElem ltJ, of_decide_eq_true hit⟩

/-- A message leaves SharedMemory and the trigger, and sets the flag of the test. -/
theorem itemInfo_flags (s : State) (j : Nat) (it' : IOInfo) (v : Int) :
    (s.itemInfo j it' v).sm = s.sm ∧ (s.itemInfo j it' v).trTestLamp = s.trTestLamp ∧
      (s.itemInfo j it' v).isTestLamp = s.isTestLamp := by
  unfold State.itemInfo
  split
  · exact ⟨rfl, rfl, rfl⟩
  · exact ⟨rfl, rfl, rfl⟩
  · exact ⟨rfl, rfl, rfl⟩

theorem itemInfo_frame (hj : s.iomap[j]? = some it') : Frame s (s.itemInfo j it' v) := by
  unfold State.itemInfo
  split
  · refine ⟨config_setItem hj rfl, fun good => ?_, rfl⟩
    dsimp only
    split
    · exact infoLists_good good
    · exact good
  · exact Frame.setItem hj rfl
  · exact Frame.refl s

/-- A message for one item leaves the items and the marks of the others. -/
theorem itemInfo_ne (good : s.lists.Good) (other : i ≠ j) (it' : IOInfo) :
    (s.itemInfo j it' v).iomap[i]? = s.iomap[i]? ∧
      (s.itemInfo j it' v).lists.marks i = s.lists.marks i := by
  unfold State.itemInfo
  split
  · refine ⟨getElem?_setItem_ne other _, ?_⟩
    dsimp only
    split
    · exact infoLists_ne good other
    · rfl
  · exact ⟨getElem?_setItem_ne other _, rfl⟩
  · exact ⟨rfl, rfl⟩

theorem sensorInfo_frame (c : Config) (s : State) (id : ObjectId) (v : Int) :
    Frame s (s.sensorInfo c id v) ∧ (s.sensorInfo c id v).sm = s.sm ∧
      (c.forceOut = false → (s.sensorInfo c id v).isTestLamp =
        if c.testLampS = some id then decide (v ≠ 0) else s.isTestLamp) := by
  rcases Bool.eq_false_or_eq_true c.forceOut with forced | notForced
  · have same : s.sensorInfo c id v = s := by
      unfold State.sensorInfo
      rw [if_pos forced]
    rw [same]
    exact ⟨Frame.refl s, rfl, fun h => by rw [forced] at h; cases h⟩
  · obtain ⟨mode, flags⟩ := testInfo_eq c s id v
    have first : Frame s (s.testInfo c id v) := by
      rw [flags]
      exact ⟨rfl, fun good => good, rfl⟩
    cases found : s.iomap.findIdx? fun x => x.si.id = id with
    | none =>
      rw [sensorInfo_none notForced found]
      refine ⟨first, ?_, fun _ => ?_⟩
      · rw [flags]
      · rw [flags]
    | some j =>
      obtain ⟨it', hj, -⟩ := findIdx_some found
      rw [sensorInfo_found notForced found hj]
      obtain ⟨sm, -, test⟩ := itemInfo_flags (s.testInfo c id v) j it' v
      refine ⟨first.trans (itemInfo_frame ?_), ?_, fun _ => ?_⟩
      · rw [flags]
        exact hj
      · rw [sm, flags]
      · rw [test, flags]

/-- **A message for an analog lamp.** -/
theorem sensorInfo_lamp (notForced : c.forceOut = false) (good : s.lists.Good)
    (unique : UniqueIds s.iomap) (hit : s.iomap[i]? = some it) (ao : it.stype = .AO)
    (lamp : it.lamp = true) (value : LampValue v) :
    (s.sensorInfo c it.si.id v).iomap[i]? = some (it.withValue v) ∧
      (s.sensorInfo c it.si.id v).lists.marks i =
        if Repeats it.value v then s.lists.marks i else belongs v := by
  obtain ⟨mode, flags⟩ := testInfo_eq c s it.si.id v
  have here : (s.testInfo c it.si.id v).iomap[i]? = some it := by
    rw [flags]
    exact hit
  rw [sensorInfo_found notForced (unique.findIdx hit) hit]
  unfold State.itemInfo
  rw [ao]
  refine ⟨getElem?_setItem_self here _, ?_⟩
  dsimp only
  rw [if_pos lamp, flags]
  exact infoLists_marks good value

theorem sensorInfo_other (good : s.lists.Good) (hit : s.iomap[i]? = some it)
    (other : id ≠ it.si.id) :
    (s.sensorInfo c id v).iomap[i]? = some it ∧
      (s.sensorInfo c id v).lists.marks i = s.lists.marks i := by
  rcases Bool.eq_false_or_eq_true c.forceOut with forced | notForced
  · unfold State.sensorInfo
    rw [if_pos forced]
    exact ⟨hit, rfl⟩
  · obtain ⟨mode, flags⟩ := testInfo_eq c s id v
    cases found : s.iomap.findIdx? fun x => x.si.id = id with
    | none =>
      rw [sensorInfo_none notForced found, flags]
      exact ⟨hit, rfl⟩
    | some j =>
      obtain ⟨it', hj, same⟩ := findIdx_some found
      have away : i ≠ j := by
        rintro rfl
        rw [hit] at hj
        cases hj
        exact other same.symm
      have good' : (s.testInfo c id v).lists.Good := by
        rw [flags]
        exact good
      obtain ⟨item, marks⟩ := itemInfo_ne (v := v) good' away it'
      rw [sensorInfo_found notForced found hj, item, marks, flags]
      exact ⟨hit, rfl⟩

/-- A message leaves the marks of an output that is no analog lamp. -/
theorem sensorInfo_discrete (good : s.lists.Good) (hit : s.iomap[i]? = some it)
    (do' : it.stype = .DO) : (s.sensorInfo c id v).lists.marks i = s.lists.marks i := by
  by_cases other : id = it.si.id
  · rcases Bool.eq_false_or_eq_true c.forceOut with forced | notForced
    · unfold State.sensorInfo
      rw [if_pos forced]
    · obtain ⟨mode, flags⟩ := testInfo_eq c s id v
      cases found : s.iomap.findIdx? fun x => x.si.id = id with
      | none => rw [sensorInfo_none notForced found, flags]
      | some j =>
        obtain ⟨it', hj, -⟩ := findIdx_some found
        have good' : (s.testInfo c id v).lists.Good := by
          rw [flags]
          exact good
        rw [sensorInfo_found notForced found hj]
        by_cases here : i = j
        · subst here
          rw [hit] at hj
          cases hj
          unfold State.itemInfo
          rw [do', flags]
          rfl
        · rw [(itemInfo_ne (v := v) good' here it').2, flags]
  · exact (sensorInfo_other good hit other).2

theorem change_lamp (notForced : c.forceOut = false) (good : s.lists.Good)
    (unique : UniqueIds s.iomap) (hit : s.iomap[i]? = some it) (ao : it.stype = .AO)
    (lamp : it.lamp = true) (value : LampValue v) :
    (s.change c (it.si.id, v)).iomap[i]? = some (it.withValue v) ∧
      (s.change c (it.si.id, v)).lists.marks i =
        if Repeats it.value v then s.lists.marks i else belongs v :=
  sensorInfo_lamp (s := s.save it.si.id v) notForced good unique hit ao lamp value

theorem change_other (good : s.lists.Good) (hit : s.iomap[i]? = some it)
    (other : id ≠ it.si.id) : (s.change c (id, v)).iomap[i]? = some it ∧
      (s.change c (id, v)).lists.marks i = s.lists.marks i :=
  sensorInfo_other (s := s.save id v) good hit other

theorem change_discrete (good : s.lists.Good) (hit : s.iomap[i]? = some it) (do' : it.stype = .DO)
    (e : ObjectId × Int) : (s.change c e).lists.marks i = s.lists.marks i :=
  sensorInfo_discrete (s := s.save e.1 e.2) good hit do'

theorem change_frame (c : Config) (s : State) (e : ObjectId × Int) : Frame s (s.change c e) := by
  have first : Frame s (s.save e.1 e.2) := ⟨rfl, fun good => good, rfl⟩
  exact first.trans (sensorInfo_frame c _ e.1 e.2).1

theorem change_sm (c : Config) (s : State) (e : ObjectId × Int) :
    (s.change c e).sm = Function.update s.sm e.1 e.2 :=
  (sensorInfo_frame c (s.save e.1 e.2) e.1 e.2).2.1

theorem change_forced (forced : c.forceOut = true) (e : ObjectId × Int) :
    s.change c e = s.save e.1 e.2 := by
  unfold State.change State.sensorInfo
  rw [if_pos forced]

variable (changes : List (ObjectId × Int))

theorem changes_frame (c : Config) (s : State) : Frame s (changes.foldl (State.change c) s) := by
  induction changes generalizing s with
  | nil => exact Frame.refl s
  | cons e rest ih => exact (change_frame c s e).trans (ih (s.change c e))

/-- SharedMemory has the last value of every sensor. -/
theorem changes_sm (c : Config) (s : State) (id : ObjectId) :
    (changes.foldl (State.change c) s).sm id = (valuesOf id changes).getLastD (s.sm id) := by
  induction changes generalizing s with
  | nil => rfl
  | cons e rest ih =>
    obtain ⟨id', v⟩ := e
    rw [List.foldl_cons, ih, change_sm]
    by_cases same : id' = id
    · subst same
      rw [Function.update_self, valuesOf_cons_self, List.getLastD_cons]
    · rw [Function.update_of_ne (Ne.symm same), valuesOf_cons_ne same]

theorem changes_forced (forced : c.forceOut = true) (s : State) :
    ∃ sm, changes.foldl (State.change c) s = { s with sm := sm } := by
  induction changes generalizing s with
  | nil => exact ⟨s.sm, rfl⟩
  | cons e rest ih =>
    obtain ⟨sm, same⟩ := ih (s.change c e)
    refine ⟨sm, ?_⟩
    rw [List.foldl_cons, same, change_forced forced]
    rfl

/-- The flag of the test after messages is the last state of its sensor. -/
theorem changes_test (notForced : c.forceOut = false) {id : ObjectId} (sensor : c.testLampS = some id)
    (s : State) : (changes.foldl (State.change c) s).isTestLamp =
      decide ((valuesOf id changes).getLastD (if s.isTestLamp then 1 else 0) ≠ 0) := by
  induction changes generalizing s with
  | nil => cases h : s.isTestLamp <;> simp [valuesOf, h]
  | cons e rest ih =>
    obtain ⟨id', v⟩ := e
    have step : (s.change c (id', v)).isTestLamp =
        if c.testLampS = some id' then decide (v ≠ 0) else s.isTestLamp :=
      (sensorInfo_frame c (s.save id' v) id' v).2.2 notForced
    rw [List.foldl_cons, ih, step, sensor]
    by_cases same : id' = id
    · subst same
      rw [if_pos rfl, valuesOf_cons_self, List.getLastD_cons]
      cases hrest : valuesOf id' rest with
      | nil => by_cases zero : v = 0 <;> simp [zero]
      | cons w ws => rw [List.getLastD_cons, List.getLastD_cons]
    · rw [if_neg (fun h => same (Option.some.inj h).symm), valuesOf_cons_ne same]

/-- The lists of a lamp behind a first value and others: it is left where it was if all of them repeat the value it
has. -/
theorem repeats_cons (prev v : Int) (rest : List Int) (marks : Set BlinkList) :
    (if ∀ w ∈ rest, Repeats v w then if Repeats prev v then marks else belongs v else belongs (rest.getLastD v)) =
      if ∀ w ∈ v :: rest, Repeats prev w then marks else belongs (rest.getLastD v) := by
  by_cases first : Repeats prev v
  · have sameValue : v = prev := first.1
    rw [if_pos first, sameValue]
    refine if_congr ⟨fun h w hw => ?_, fun h w hw => h w (List.mem_cons_of_mem _ hw)⟩ rfl rfl
    rcases List.mem_cons.mp hw with rfl | hw
    · exact sameValue ▸ first
    · exact h w hw
  · have moved : ¬ ∀ w ∈ v :: rest, Repeats prev w := fun h => first (h v List.mem_cons_self)
    rw [if_neg first, if_neg moved]
    split
    · next repeated =>
      have last : rest.getLastD v = v := by
        rcases List.eq_nil_or_concat rest with nil | ⟨init, w, concat⟩
        · rw [nil]
          rfl
        · rw [concat, List.concat_eq_append, List.getLastD_concat]
          exact (repeated w (by rw [concat]; simp)).1
      rw [last]
    · rfl

/-- **What messages do to an analog lamp**: it is in the list of its last value, unless they all repeat
the blinking value it has. -/
theorem changes_lamp (notForced : c.forceOut = false) {s : State} {it : IOInfo}
    (good : s.lists.Good) (unique : UniqueIds s.iomap) (hit : s.iomap[i]? = some it)
    (ao : it.stype = .AO) (lamp : it.lamp = true)
    (values : ∀ v ∈ valuesOf it.si.id changes, LampValue v) :
    (changes.foldl (State.change c) s).iomap[i]? =
        some (it.withValue ((valuesOf it.si.id changes).getLastD it.value)) ∧
      (changes.foldl (State.change c) s).lists.marks i =
        if ∀ v ∈ valuesOf it.si.id changes, Repeats it.value v then s.lists.marks i
        else belongs ((valuesOf it.si.id changes).getLastD it.value) := by
  induction changes generalizing s it with
  | nil => exact ⟨hit, (if_pos fun _ h => nomatch h).symm⟩
  | cons e rest ih =>
    obtain ⟨id', v⟩ := e
    have frame := change_frame c s (id', v)
    have unique' := frame.unique unique
    rw [List.foldl_cons]
    by_cases same : id' = it.si.id
    · subst same
      rw [valuesOf_cons_self] at values ⊢
      obtain ⟨item, marked⟩ := change_lamp notForced good unique hit ao lamp
        (values v List.mem_cons_self)
      obtain ⟨item', marks'⟩ := ih (frame.good good) unique' item ao lamp
        fun w hw => values w (List.mem_cons_of_mem _ hw)
      refine ⟨item'.trans (by rw [List.getLastD_cons]; rfl), ?_⟩
      rw [marks', marked, List.getLastD_cons]
      exact repeats_cons it.value v (valuesOf it.si.id rest) (s.lists.marks i)
    · rw [valuesOf_cons_ne same] at values ⊢
      obtain ⟨item, marked⟩ := change_other (c := c) (v := v) good hit same
      obtain ⟨item', marks'⟩ := ih (frame.good good) unique' item ao lamp values
      rw [marked] at marks'
      exact ⟨item', marks'⟩

/-- Messages leave the marks of an output that is no analog lamp. -/
theorem changes_discrete {s : State} {it : IOInfo} (good : s.lists.Good)
    (hit : s.iomap[i]? = some it) (do' : it.stype = .DO) :
    (changes.foldl (State.change c) s).lists.marks i = s.lists.marks i := by
  induction changes generalizing s it with
  | nil => rfl
  | cons e rest ih =>
    have frame := change_frame c s e
    obtain ⟨it', hit', same⟩ := static_of_config frame.config.symm hit
    have do'' : it'.stype = .DO := (congrArg (fun x => x.stype) same).symm.trans do'
    rw [List.foldl_cons, ih (frame.good good) hit' do'', change_discrete good hit do']

end Messages

end UniSet.IOControl
