/-
**The dynamic tags of the ClickHouse backend.**

A sensor gets the tags of the ranges that have the value of its source. The text of a tag is kept in its range, which
all sources of a section share, and is rendered anew only for a source whose value is not its previous one.

* `Range.updateText`, `ClickHouseTagsConfig.makeTags`, `updateTags`, `getTags` — the source's functions.
* `Setup` — the configuration; `Setup.reached` — after calls, with the values that each section was rendered for.
* `column_columnAfter` — the keys of a range, or its values, after renderings: those behind the first one without
  placeholders are never rendered, and those before it only once.
* `wanted` — the tags that the documentation names.
* **`getTags_iff`** — `getTags` returns them exactly if the texts that are asked for stand where they are rendered,
  for the value at the time.
-/

import UniSet.Lib.Templates
import Mathlib.Data.List.TakeWhile
import Mathlib.Logic.Function.Basic

namespace UniSet.BackendClickHouse.DynamicTags

open Lib.Template

/-- An `ObjectId`. -/
abbrev ObjectId := Int

/-- A text. -/
abbrev Text := List Char

/-! ### The tags of a range -/

/-- `Tag`. -/
structure Tag where
  key : Text
  value : Text
  orig_key : Text
  orig_value : Text
deriving DecidableEq, Repr

/-- The tag that `parseTags` makes. -/
def Tag.parsed (key value : Text) : Tag := ⟨key, value, key, value⟩

/-- `Range`. -/
structure Range where
  vmin : Int
  vmax : Int
  tags : List Tag
  needReplaceKey : Bool
  needReplaceVal : Bool
deriving DecidableEq, Repr

/-- `Range::checkInRange`. -/
def Range.checkInRange (r : Range) (value : Int) : Bool := r.vmin ≤ value && value ≤ r.vmax

/-- `replace_all`. -/
def replace_all (src old new : Text) : Text := if old = [] then src else replaceAll old new 0 src

/-- The text of a template: `%v`, then `%min`, then `%max`. -/
def replaced (value vmin vmax : Int) (orig : Text) : Text :=
  replace_all (replace_all (replace_all orig "%v".toList (decimal value)) "%min".toList (decimal vmin)) "%max".toList
    (decimal vmax)

/-- A key or a value of a tag, and its flag. -/
def updateField (value vmin vmax : Int) (needReplace : Bool) (text orig : Text) : Text × Bool :=
  if needReplace then (replaced value vmin vmax orig, !decide (replaced value vmin vmax orig = orig))
  else (text, false)

/-- The loop of `Range::updateText`. -/
def updateLoop (value vmin vmax : Int) : Bool → Bool → List Tag → List Tag × Bool × Bool
  | needReplaceKey, needReplaceVal, [] => ([], needReplaceKey, needReplaceVal)
  | needReplaceKey, needReplaceVal, t :: tags =>
    let key := updateField value vmin vmax needReplaceKey t.key t.orig_key
    let val := updateField value vmin vmax needReplaceVal t.value t.orig_value
    let rest := updateLoop value vmin vmax key.2 val.2 tags
    ({ t with key := key.1, value := val.1 } :: rest.1, rest.2)

/-- **`Range::updateText`.** -/
def Range.updateText (r : Range) (value : Int) : Range :=
  let updated := updateLoop value r.vmin r.vmax r.needReplaceKey r.needReplaceVal r.tags
  { r with tags := updated.1, needReplaceKey := updated.2.1, needReplaceVal := updated.2.2 }

/-! ### The tags of a sensor -/

/-- The part of `TagsInfo` that the configuration says: the source, and its tags or the name of its section. -/
structure Source where
  any_tags : List Tag
  vit : Text
  sid : ObjectId
deriving DecidableEq, Repr

/-- `TagsInfo`. -/
structure TagsInfo extends Source where
  prev_value : Int
  initOk : Bool
deriving DecidableEq, Repr

/-- **`ClickHouseTagsConfig`.** -/
structure ClickHouseTagsConfig where
  smap : ObjectId → Option Int
  tagsmap : Text → List Range
  tags : ObjectId → Option (List TagsInfo)

/-- `t.it->second`. -/
def TagsInfo.current (t : TagsInfo) (smap : ObjectId → Option Int) : Int := (smap t.sid).getD 0

/-- The texts are rendered anew. -/
def TagsInfo.renders (t : TagsInfo) (smap : ObjectId → Option Int) : Bool :=
  t.current smap ≠ t.prev_value || !t.initOk

/-- A range at a source. -/
def TagsInfo.updated (t : TagsInfo) (smap : ObjectId → Option Int) (r : Range) : Range :=
  if t.renders smap then r.updateText (t.current smap) else r

/-- The tags of a range at a source. -/
def TagsInfo.taken (t : TagsInfo) (smap : ObjectId → Option Int) (r : Range) : List Tag :=
  if r.checkInRange (t.current smap) then r.tags else []

/-- The source has been met. -/
def TagsInfo.met (t : TagsInfo) (smap : ObjectId → Option Int) : TagsInfo :=
  if t.renders smap then { t with initOk := true, prev_value := t.current smap } else t

/-- **`makeTags`**: the tags, and the sources and the sections after it. -/
def makeTags (smap : ObjectId → Option Int) :
    List TagsInfo → (Text → List Range) → List Tag × List TagsInfo × (Text → List Range)
  | [], tagsmap => ([], [], tagsmap)
  | t :: lst, tagsmap =>
    if t.any_tags ≠ [] then
      let rest := makeTags smap lst tagsmap
      ((if t.current smap ≠ 0 then t.any_tags else []) ++ rest.1, t :: rest.2.1, rest.2.2)
    else
      let ranges := (tagsmap t.vit).map (t.updated smap)
      let rest := makeTags smap lst (Function.update tagsmap t.vit ranges)
      (ranges.flatMap (t.taken smap) ++ rest.1, t.met smap :: rest.2.1, rest.2.2)

/-- **`getTags`.** -/
def ClickHouseTagsConfig.getTags (c : ClickHouseTagsConfig) (id : ObjectId) : List Tag × ClickHouseTagsConfig :=
  match c.tags id with
  | none => ([], c)
  | some lst =>
    let made := makeTags c.smap lst c.tagsmap
    (made.1, { c with tagsmap := made.2.2, tags := Function.update c.tags id (some made.2.1) })

/-- **`updateTags`.** -/
def ClickHouseTagsConfig.updateTags (c : ClickHouseTagsConfig) (id : ObjectId) (value : Int) :
    Bool × ClickHouseTagsConfig :=
  match c.smap id with
  | none => (false, c)
  | some _ => (true, { c with smap := Function.update c.smap id (some value) })

/-! ### Configurations -/

/-- An `<item>` of a section. -/
structure Item where
  vmin : Int
  vmax : Int
  tags : List (Text × Text)
deriving DecidableEq, Repr

/-- **A configuration**: sections, and the sources of sensors. -/
structure Setup where
  smap : ObjectId → Option Int
  sections : Text → List Item
  sources : ObjectId → Option (List Source)

/-- A range that has been loaded. -/
def Item.loaded (i : Item) : Range where
  vmin := i.vmin
  vmax := i.vmax
  tags := i.tags.map fun t => .parsed t.1 t.2
  needReplaceKey := true
  needReplaceVal := true

/-- A source that has been loaded. -/
def Source.loaded (s : Source) : TagsInfo := { s with prev_value := 0, initOk := false }

/-- **The configuration that has been loaded.** -/
def Setup.load (s : Setup) : ClickHouseTagsConfig where
  smap := s.smap
  tagsmap name := (s.sections name).map Item.loaded
  tags id := (s.sources id).map (·.map Source.loaded)

/-! ### Calls -/

/-- A call. -/
inductive Call
  | updateTags (id : ObjectId) (value : Int)
  | getTags (id : ObjectId)
deriving DecidableEq, Repr

/-- The values that each section was rendered for, in their order. -/
abbrev Renderings := Text → List Int

/-- The renderings of a section after a source. -/
def TagsInfo.rendered (t : TagsInfo) (smap : ObjectId → Option Int) (done : Renderings) : Renderings :=
  if t.any_tags = [] && t.renders smap then Function.update done t.vit (done t.vit ++ [t.current smap]) else done

/-- The renderings after all sources of a sensor. -/
def renderings (smap : ObjectId → Option Int) (lst : List TagsInfo) (done : Renderings) : Renderings :=
  lst.foldl (fun done t => t.rendered smap done) done

/-- The sources of a sensor, with the renderings of its section when each is met. -/
def meetings (smap : ObjectId → Option Int) : List TagsInfo → Renderings → List (TagsInfo × List Int)
  | [], _ => []
  | t :: lst, done => (t, t.rendered smap done t.vit) :: meetings smap lst (t.rendered smap done)

/-- The configuration and the renderings. -/
structure Watched where
  config : ClickHouseTagsConfig
  done : Renderings

/-- One call. -/
def Watched.call (w : Watched) : Call → Watched
  | .updateTags id value => { w with config := (w.config.updateTags id value).2 }
  | .getTags id => ⟨(w.config.getTags id).2, ((w.config.tags id).elim w.done) (renderings w.config.smap · w.done)⟩

/-- **After calls.** -/
def Setup.reached (s : Setup) (calls : List Call) : Watched := calls.foldl Watched.call ⟨s.load, fun _ => []⟩

/-! ### The tags that are wanted -/

/-- A placeholder. -/
inductive Placeholder
  | v | min | max
deriving DecidableEq, Repr

/-- The names of the placeholders, behind the per cent sign. -/
def names : List (List Char × Placeholder) := [("v".toList, .v), ("min".toList, .min), ("max".toList, .max)]

/-- What stands for a placeholder. -/
def shown (value vmin vmax : Int) : Placeholder → Text
  | .v => decimal value
  | .min => decimal vmin
  | .max => decimal vmax

/-- The parts of a template. -/
def parts (orig : Text) : List (Char ⊕ Placeholder) := scan '%' names 0 orig

/-- **A template with all its placeholders replaced.** -/
def render (value vmin vmax : Int) (orig : Text) : Text := fill (shown value vmin vmax) (parts orig)

/-- The keys and the values of tags. -/
def texts (tags : List Tag) : List (Text × Text) := tags.map fun t => (t.key, t.value)

/-- The tags of an item for a value. -/
def Item.wanted (i : Item) (value : Int) : List (Text × Text) :=
  if i.vmin ≤ value ∧ value ≤ i.vmax then
    i.tags.map fun t => (render value i.vmin i.vmax t.1, render value i.vmin i.vmax t.2)
  else []

/-- The tags of a source for its value. -/
def Source.wanted (s : Setup) (src : Source) (value : Int) : List (Text × Text) :=
  if src.any_tags ≠ [] then if value ≠ 0 then texts src.any_tags else []
  else (s.sections src.vit).flatMap (·.wanted value)

/-- **The tags of a sensor**: those of each source for its current value, in the order of the configuration. -/
def Setup.wanted (s : Setup) (smap : ObjectId → Option Int) (id : ObjectId) : List (Text × Text) :=
  ((s.sources id).getD []).flatMap fun src => src.wanted s ((smap src.sid).getD 0)

/-! ### Which texts are shown -/

/-- The template has a placeholder. -/
def dynamic (orig : Text) : Bool := (parts orig).any Sum.isRight

/-- **The value that the texts of a range show**: that of the last rendering if every text has a placeholder, else
that of the first one. -/
def shownValue (done : List Int) (origs : List Text) : Option Int :=
  if origs.all dynamic then done.getLast? else done.head?

/-- **The texts are right for a value**: behind the first one without placeholders none has any, and those before it
have no `%v` or show that value. -/
def Fresh (done : List Int) (value : Int) (origs : List Text) : Prop :=
  (∀ orig ∈ origs.takeWhile dynamic, .inr .v ∈ parts orig → shownValue done origs = some value) ∧
    ∀ orig ∈ origs.dropWhile dynamic, dynamic orig = false

/-- **The tags that a sensor is asked for are right**: the keys and the values of every range that has the value of a
source. -/
def Watched.Fresh (w : Watched) (s : Setup) (id : ObjectId) : Prop :=
  ∀ meeting ∈ meetings w.config.smap ((w.config.tags id).getD []) w.done, meeting.1.any_tags = [] →
    ∀ i ∈ s.sections meeting.1.vit,
      i.vmin ≤ meeting.1.current w.config.smap ∧ meeting.1.current w.config.smap ≤ i.vmax →
        DynamicTags.Fresh meeting.2 (meeting.1.current w.config.smap) (i.tags.map Prod.fst) ∧
          DynamicTags.Fresh meeting.2 (meeting.1.current w.config.smap) (i.tags.map Prod.snd)

section Proofs

variable {value vmin vmax v : Int} {orig : Text} {origs : List Text} {done : List Int}

/-! ### Rendering -/

theorem apart (value vmin vmax : Int) : Apart '%' names (shown value vmin vmax) where
  unmarked := by decide
  some i := by cases i <;> exact decimal_ne_nil _
  other i c member := by
    have symbol : c = '-' ∨ c.isDigit := by cases i <;> exact mem_decimal member
    have other {d : Char} (minus : d ≠ '-') (digit : d.isDigit = false) : c ≠ d := by
      rintro rfl
      obtain same | digit' := symbol
      · exact minus same
      · rw [digit] at digit'
        cases digit'
    refine ⟨other (by decide) (by decide), fun p known stands => ?_⟩
    have letters : (names.all fun p => p.1.all fun d => d != '-' && !d.isDigit) = true := by decide
    have letter := List.all_eq_true.mp (List.all_eq_true.mp letters p known) c stands
    rw [Bool.and_eq_true, bne_iff_ne, Bool.not_eq_true'] at letter
    exact other letter.1 letter.2 rfl

/-- **One placeholder after another** is all placeholders at once. -/
theorem replaced_eq : replaced value vmin vmax orig = render value vmin vmax orig := by
  have one (before : List (List Char × Placeholder)) (q : List Char) (i : Placeholder)
      (known : before ++ [(q, i)] ⊆ names) :
      replaceAll ('%' :: q) (shown value vmin vmax i) 0 (fill (shown value vmin vmax) (scan '%' before 0 orig)) =
        fill (shown value vmin vmax) (scan '%' (before ++ [(q, i)]) 0 orig) :=
    replaceAll_fill ((apart value vmin vmax).mono known)
  calc replaced value vmin vmax orig
    _ = replaced value vmin vmax (fill (shown value vmin vmax) (scan '%' [] 0 orig)) := by rw [fill_scan_nil]
    _ = replaceAll ('%' :: "max".toList) (decimal vmax) 0 (replaceAll ('%' :: "min".toList) (decimal vmin) 0
          (fill (shown value vmin vmax) (scan '%' [("v".toList, .v)] 0 orig))) :=
        congrArg _ (congrArg _ (one [] "v".toList .v (by decide)))
    _ = replaceAll ('%' :: "max".toList) (decimal vmax) 0
          (fill (shown value vmin vmax) (scan '%' [("v".toList, .v), ("min".toList, .min)] 0 orig)) :=
        congrArg _ (one [("v".toList, .v)] "min".toList .min (by decide))
    _ = render value vmin vmax orig := one [("v".toList, .v), ("min".toList, .min)] "max".toList .max (by decide)

theorem dynamic_eq_false_iff : dynamic orig = false ↔ ∀ i, .inr i ∉ parts orig := by
  simp [dynamic, Sum.forall]

theorem render_eq_self_iff : render value vmin vmax orig = orig ↔ dynamic orig = false :=
  (fill_eq_self_iff (apart value vmin vmax)).trans dynamic_eq_false_iff.symm

theorem render_eq_render_iff :
    render v vmin vmax orig = render value vmin vmax orig ↔ (.inr .v ∈ parts orig → v = value) := by
  have others (j : Placeholder) (other : j ≠ .v) : shown v vmin vmax j = shown value vmin vmax j := by
    cases j with
    | v => exact absurd rfl other
    | min => rfl
    | max => rfl
  rw [render, render, fill_eq_fill_iff others, show shown v vmin vmax .v = decimal v from rfl,
    show shown value vmin vmax .v = decimal value from rfl, decimal_injective.eq_iff]
  exact or_iff_not_imp_right.trans (by rw [not_not])

/-! ### A column: the keys of a range, or its values -/

/-- The loop of `Range::updateText` for the keys alone, or the values alone: the texts with their templates. -/
def column (value vmin vmax : Int) : Bool → List (Text × Text) → List Text × Bool
  | needReplace, [] => ([], needReplace)
  | needReplace, t :: rest =>
    let field := updateField value vmin vmax needReplace t.1 t.2
    let rest := column value vmin vmax field.2 rest
    (field.1 :: rest.1, rest.2)

theorem updateLoop_keys (needReplaceKey needReplaceVal : Bool) (tags : List Tag) :
    ((updateLoop value vmin vmax needReplaceKey needReplaceVal tags).1.map Tag.key,
      (updateLoop value vmin vmax needReplaceKey needReplaceVal tags).2.1) =
    column value vmin vmax needReplaceKey (tags.map fun t => (t.key, t.orig_key)) := by
  induction tags generalizing needReplaceKey needReplaceVal with
  | nil => rfl
  | cons t tags ih =>
    rw [List.map_cons, column, ← ih]
    rfl

theorem updateLoop_values (needReplaceKey needReplaceVal : Bool) (tags : List Tag) :
    ((updateLoop value vmin vmax needReplaceKey needReplaceVal tags).1.map Tag.value,
      (updateLoop value vmin vmax needReplaceKey needReplaceVal tags).2.2) =
    column value vmin vmax needReplaceVal (tags.map fun t => (t.value, t.orig_value)) := by
  induction tags generalizing needReplaceKey needReplaceVal with
  | nil => rfl
  | cons t tags ih =>
    rw [List.map_cons, column, ← ih]
    rfl

theorem updateLoop_origs (needReplaceKey needReplaceVal : Bool) (tags : List Tag) :
    (updateLoop value vmin vmax needReplaceKey needReplaceVal tags).1.map (fun t => (t.orig_key, t.orig_value)) =
      tags.map fun t => (t.orig_key, t.orig_value) := by
  induction tags generalizing needReplaceKey needReplaceVal with
  | nil => rfl
  | cons t tags ih => exact congrArg ((t.orig_key, t.orig_value) :: ·) (ih _ _)

theorem updateField_true (text : Text) :
    updateField value vmin vmax true text orig = (render value vmin vmax orig, dynamic orig) := by
  rw [updateField, if_pos rfl, replaced_eq]
  by_cases same : render value vmin vmax orig = orig
  · rw [render_eq_self_iff.mp same, decide_eq_true same]
    rfl
  · have places : dynamic orig = true :=
      Bool.eq_true_of_not_eq_false fun static => same (render_eq_self_iff.mpr static)
    rw [places, decide_eq_false same]
    rfl

/-- **Without the flag nothing is rendered.** -/
theorem column_false (l : List (Text × Text)) : column value vmin vmax false l = (l.map Prod.fst, false) := by
  induction l with
  | nil => rfl
  | cons t l ih =>
    rw [column]
    show (t.1 :: (column value vmin vmax false l).1, (column value vmin vmax false l).2) = _
    rw [ih]
    rfl

/-- **With placeholders in every template everything is rendered.** -/
theorem column_dynamic {l : List (Text × Text)} (all : ∀ t ∈ l, dynamic t.2 = true) :
    column value vmin vmax true l = (l.map fun t => render value vmin vmax t.2, true) := by
  induction l with
  | nil => rfl
  | cons t l ih =>
    rw [List.forall_mem_cons] at all
    rw [column, updateField_true, all.1]
    show (render value vmin vmax t.2 :: (column value vmin vmax true l).1, (column value vmin vmax true l).2) = _
    rw [ih all.2]
    rfl

/-- **The first rendering** ends behind the first template without placeholders. -/
theorem column_first (origs : List Text) : column value vmin vmax true (origs.map fun orig => (orig, orig)) =
    ((origs.takeWhile dynamic).map (render value vmin vmax) ++ origs.dropWhile dynamic, origs.all dynamic) := by
  induction origs with
  | nil => rfl
  | cons orig origs ih =>
    rw [List.map_cons, column, updateField_true]
    cases places : dynamic orig with
    | true =>
      rw [List.takeWhile_cons_of_pos places, List.dropWhile_cons_of_pos places, List.all_cons, places, Bool.true_and]
      show (render value vmin vmax orig :: (column value vmin vmax true _).1, (column value vmin vmax true _).2) = _
      rw [ih]
      rfl
    | false =>
      have static : ¬ dynamic orig = true := by rw [places]; exact Bool.false_ne_true
      rw [List.takeWhile_cons_of_neg static, List.dropWhile_cons_of_neg static, List.all_cons, places, Bool.false_and]
      show (render value vmin vmax orig :: (column value vmin vmax false _).1, (column value vmin vmax false _).2) = _
      rw [column_false, render_eq_self_iff.mpr places, List.map_map]
      exact congrArg (fun texts => (orig :: texts, false)) (List.map_id origs)

/-- **The texts of a column after renderings**, and its flag. -/
def columnAfter (vmin vmax : Int) (done : List Int) (origs : List Text) : List Text × Bool :=
  match shownValue done origs with
  | none => (origs, true)
  | some value =>
    ((origs.takeWhile dynamic).map (render value vmin vmax) ++ origs.dropWhile dynamic, origs.all dynamic)

theorem shownValue_nil : shownValue [] origs = none := by
  rw [shownValue]
  split <;> rfl

theorem exists_shownValue (begun : done ≠ []) (origs : List Text) : ∃ value, shownValue done origs = some value := by
  obtain ⟨first, rest, rfl⟩ := List.exists_cons_of_ne_nil begun
  rw [shownValue]
  split
  · exact ⟨_, List.getLast?_eq_some_getLast (List.cons_ne_nil _ _)⟩
  · exact ⟨first, rfl⟩

theorem columnAfter_of_shownValue (shows : shownValue done origs = some v) : columnAfter vmin vmax done origs =
    ((origs.takeWhile dynamic).map (render v vmin vmax) ++ origs.dropWhile dynamic, origs.all dynamic) := by
  rw [columnAfter, shows]

theorem length_columnAfter : (columnAfter vmin vmax done origs).1.length = origs.length := by
  rw [columnAfter]
  split
  · rfl
  · rw [List.length_append, List.length_map, ← List.length_append, List.takeWhile_append_dropWhile]

/-- **One rendering more.** -/
theorem column_columnAfter : column value vmin vmax (columnAfter vmin vmax done origs).2
    ((columnAfter vmin vmax done origs).1.zip origs) = columnAfter vmin vmax (done ++ [value]) origs := by
  by_cases start : done = []
  · have shows : shownValue ([] ++ [value]) origs = some value := by
      rw [shownValue]
      split <;> rfl
    rw [start, columnAfter_of_shownValue shows, columnAfter, shownValue_nil]
    have pairs : origs.zip origs = origs.map fun orig => (orig, orig) := by
      simpa using (List.zip_map' : (origs.map id).zip (origs.map id) = _)
    rw [pairs]
    exact column_first origs
  · obtain ⟨v, shows⟩ := exists_shownValue start origs
    rw [columnAfter_of_shownValue shows]
    cases all : origs.all dynamic with
    | true =>
      have known := List.all_eq_true.mp all
      have shows' : shownValue (done ++ [value]) origs = some value := by
        rw [shownValue, if_pos all, List.getLast?_concat]
      have everywhere : ∀ t ∈
          ((origs.takeWhile dynamic).map (render v vmin vmax) ++ origs.dropWhile dynamic).zip origs,
          dynamic t.2 = true := fun t member => known t.2 (List.of_mem_zip member).2
      have snds : (fun t : Text × Text => render value vmin vmax t.2) = render value vmin vmax ∘ Prod.snd := rfl
      rw [columnAfter_of_shownValue shows', column_dynamic everywhere, all, snds, ← List.map_map,
        List.takeWhile_eq_self_iff.mpr known, List.dropWhile_eq_nil_iff.mpr known, List.append_nil, List.append_nil,
        List.map_snd_zip (by simp)]
    | false =>
      have shows' : shownValue (done ++ [value]) origs = some v := by
        rw [shownValue, all] at shows ⊢
        obtain ⟨first, rest, rfl⟩ := List.exists_cons_of_ne_nil start
        exact shows
      rw [columnAfter_of_shownValue shows', column_false, all, List.map_fst_zip]
      rw [List.length_append, List.length_map, ← List.length_append, List.takeWhile_append_dropWhile]

/-- **When a column shows a value.** -/
theorem columnAfter_iff (vmin vmax : Int) (begun : done ≠ []) :
    (columnAfter vmin vmax done origs).1 = origs.map (render value vmin vmax) ↔ Fresh done value origs := by
  obtain ⟨v, shows⟩ := exists_shownValue begun origs
  have split : origs.map (render value vmin vmax) = (origs.takeWhile dynamic).map (render value vmin vmax) ++
      (origs.dropWhile dynamic).map (render value vmin vmax) := by
    rw [← List.map_append, List.takeWhile_append_dropWhile]
  have before : (origs.takeWhile dynamic).map (render v vmin vmax) =
      (origs.takeWhile dynamic).map (render value vmin vmax) ↔
        ∀ orig ∈ origs.takeWhile dynamic, .inr .v ∈ parts orig → some v = some value := by
    simp only [List.map_inj_left, render_eq_render_iff, Option.some.injEq]
  have behind : origs.dropWhile dynamic = (origs.dropWhile dynamic).map (render value vmin vmax) ↔
      ∀ orig ∈ origs.dropWhile dynamic, dynamic orig = false := by
    conv_lhs => lhs; rw [← List.map_id (origs.dropWhile dynamic)]
    simp only [List.map_inj_left, id_eq, eq_comm (b := render value vmin vmax _), render_eq_self_iff]
  rw [columnAfter_of_shownValue shows, split, Fresh, shows, ← before, ← behind]
  exact List.append_eq_append_iff_of_size_eq_left (by simp)

/-! ### Ranges -/

/-- **A range after renderings.** -/
structure Item.Holds (i : Item) (done : List Int) (r : Range) : Prop where
  vmin : r.vmin = i.vmin
  vmax : r.vmax = i.vmax
  origs : (r.tags.map fun t => (t.orig_key, t.orig_value)) = i.tags
  keys : (r.tags.map Tag.key, r.needReplaceKey) = columnAfter i.vmin i.vmax done (i.tags.map Prod.fst)
  values : (r.tags.map Tag.value, r.needReplaceVal) = columnAfter i.vmin i.vmax done (i.tags.map Prod.snd)

variable {i : Item} {r : Range}

theorem loaded_holds (i : Item) : i.Holds [] i.loaded where
  vmin := rfl
  vmax := rfl
  origs := by
    rw [Item.loaded, List.map_map]
    exact List.map_id _
  keys := by
    rw [columnAfter, shownValue_nil]
    simp [Item.loaded, Tag.parsed]
  values := by
    rw [columnAfter, shownValue_nil]
    simp [Item.loaded, Tag.parsed]

/-- **The texts of a range after one rendering more.** -/
theorem Item.Holds.updateText (holds : i.Holds done r) (value : Int) :
    i.Holds (done ++ [value]) (r.updateText value) where
  vmin := holds.vmin
  vmax := holds.vmax
  origs := (updateLoop_origs _ _ _).trans holds.origs
  keys := by
    have pairs : (r.tags.map fun t => (t.key, t.orig_key)) = (r.tags.map Tag.key).zip (i.tags.map Prod.fst) := by
      rw [← holds.origs, List.map_map]
      exact List.zip_map'.symm
    refine (updateLoop_keys _ _ _).trans ?_
    rw [pairs, holds.vmin, holds.vmax, ← column_columnAfter, ← holds.keys]
  values := by
    have pairs : (r.tags.map fun t => (t.value, t.orig_value)) = (r.tags.map Tag.value).zip (i.tags.map Prod.snd) := by
      rw [← holds.origs, List.map_map]
      exact List.zip_map'.symm
    refine (updateLoop_values _ _ _).trans ?_
    rw [pairs, holds.vmin, holds.vmax, ← column_columnAfter, ← holds.values]

/-- **The texts of a range.** -/
theorem Item.Holds.texts_eq (holds : i.Holds done r) : texts r.tags =
    (columnAfter i.vmin i.vmax done (i.tags.map Prod.fst)).1.zip
      (columnAfter i.vmin i.vmax done (i.tags.map Prod.snd)).1 := by
  rw [← holds.keys, ← holds.values]
  exact List.zip_map'.symm

/-- The texts of an item that a source is given. -/
def Item.given (i : Item) (done : List Int) (value : Int) : List (Text × Text) :=
  if i.vmin ≤ value ∧ value ≤ i.vmax then
    (columnAfter i.vmin i.vmax done (i.tags.map Prod.fst)).1.zip
      (columnAfter i.vmin i.vmax done (i.tags.map Prod.snd)).1
  else []

theorem Item.length_given (i : Item) (done : List Int) (value : Int) :
    (i.given done value).length = (i.wanted value).length := by
  rw [Item.given, Item.wanted]
  split
  · simp [length_columnAfter]
  · rfl

theorem zip_eq_zip_iff {a a' b b' : List Text} (lengths : a.length = b.length) (lengths' : a'.length = b'.length) :
    a.zip b = a'.zip b' ↔ a = a' ∧ b = b' := by
  constructor
  · intro same
    have columns := congrArg List.unzip same
    rw [List.unzip_zip lengths, List.unzip_zip lengths'] at columns
    exact Prod.mk.inj columns
  · rintro ⟨rfl, rfl⟩
    rfl

/-- **When an item gives what is wanted of it.** -/
theorem Item.given_iff (i : Item) (begun : done ≠ []) : i.given done value = i.wanted value ↔
    (i.vmin ≤ value ∧ value ≤ i.vmax →
      Fresh done value (i.tags.map Prod.fst) ∧ Fresh done value (i.tags.map Prod.snd)) := by
  rw [Item.given, Item.wanted]
  by_cases within : i.vmin ≤ value ∧ value ≤ i.vmax
  · have pairs : (i.tags.map fun t => (render value i.vmin i.vmax t.1, render value i.vmin i.vmax t.2)) =
        ((i.tags.map Prod.fst).map (render value i.vmin i.vmax)).zip
          ((i.tags.map Prod.snd).map (render value i.vmin i.vmax)) := by
      rw [List.map_map, List.map_map, List.zip_map']
      rfl
    rw [if_pos within, if_pos within, ← columnAfter_iff i.vmin i.vmax begun, ← columnAfter_iff i.vmin i.vmax begun,
      pairs, zip_eq_zip_iff (by simp [length_columnAfter]) (by simp)]
    exact ⟨fun columns _ => columns, fun columns => columns within⟩
  · rw [if_neg within, if_neg within]
    exact iff_of_true rfl fun inside => absurd inside within

/-! ### Sources -/

variable {s : Setup} {smap : ObjectId → Option Int} {t : TagsInfo} {lst : List TagsInfo} {rendered : Renderings}
  {tagsmap : Text → List Range}

theorem rendered_of_any (any : t.any_tags ≠ []) : t.rendered smap rendered = rendered := by
  simp [TagsInfo.rendered, any]

theorem rendered_section (ranges : t.any_tags = []) : t.rendered smap rendered t.vit =
    if t.renders smap then rendered t.vit ++ [t.current smap] else rendered t.vit := by
  rw [TagsInfo.rendered, ranges]
  cases t.renders smap with
  | true => simp
  | false => simp

theorem rendered_of_ne {name : Text} (other : name ≠ t.vit) : t.rendered smap rendered name = rendered name := by
  rw [TagsInfo.rendered]
  split
  · rw [Function.update_of_ne other]
  · rfl

theorem rendered_ne_nil {name : Text} (begun : rendered name ≠ []) : t.rendered smap rendered name ≠ [] := by
  rw [TagsInfo.rendered]
  split
  · by_cases same : name = t.vit
    · subst same
      simp
    · rwa [Function.update_of_ne same]
  · exact begun

theorem Item.Holds.updated (ranges : t.any_tags = []) (holds : i.Holds (rendered t.vit) r) :
    i.Holds (t.rendered smap rendered t.vit) (t.updated smap r) := by
  rw [rendered_section ranges, TagsInfo.updated]
  split
  · exact holds.updateText _
  · exact holds

theorem Item.Holds.taken (holds : i.Holds done r) :
    texts (t.taken smap r) = i.given done (t.current smap) := by
  rw [TagsInfo.taken, Item.given, Range.checkInRange, holds.vmin, holds.vmax]
  simp only [Bool.and_eq_true, decide_eq_true_eq]
  split
  · exact holds.texts_eq
  · rfl

theorem texts_append (a b : List Tag) : texts (a ++ b) = texts a ++ texts b := List.map_append

/-- **Sections after renderings.** -/
def Held (s : Setup) (rendered : Renderings) (tagsmap : Text → List Range) : Prop :=
  ∀ name, List.Forall₂ (fun i r => Item.Holds i (rendered name) r) (s.sections name) (tagsmap name)

theorem Held.updated (held : Held s rendered tagsmap) (ranges : t.any_tags = []) :
    List.Forall₂ (fun i r => Item.Holds i (t.rendered smap rendered t.vit) r) (s.sections t.vit)
      ((tagsmap t.vit).map (t.updated smap)) := by
  rw [List.forall₂_map_right_iff]
  exact (held t.vit).imp fun _ _ holds => holds.updated ranges

theorem Held.met (held : Held s rendered tagsmap) (smap : ObjectId → Option Int) (ranges : t.any_tags = []) :
    Held s (t.rendered smap rendered) (Function.update tagsmap t.vit ((tagsmap t.vit).map (t.updated smap))) := by
  intro name
  by_cases same : name = t.vit
  · rw [same, Function.update_self]
    exact held.updated ranges
  · rw [Function.update_of_ne same, rendered_of_ne same]
    exact held name

/-- The texts that a source gives. -/
def Source.given (s : Setup) (src : Source) (done : List Int) (value : Int) : List (Text × Text) :=
  if src.any_tags ≠ [] then if value ≠ 0 then texts src.any_tags else []
  else (s.sections src.vit).flatMap (·.given done value)

theorem Source.length_given (s : Setup) (src : Source) (done : List Int) (value : Int) :
    (src.given s done value).length = (src.wanted s value).length := by
  rw [Source.given, Source.wanted]
  split
  · rfl
  · rw [List.length_flatMap, List.length_flatMap]
    simp only [Item.length_given]

/-- **When a source gives what is wanted of it.** -/
theorem Source.given_iff (s : Setup) (src : Source) (value : Int) (begun : src.any_tags = [] → done ≠ []) :
    src.given s done value = src.wanted s value ↔ (src.any_tags = [] → ∀ i ∈ s.sections src.vit,
      i.vmin ≤ value ∧ value ≤ i.vmax →
        Fresh done value (i.tags.map Prod.fst) ∧ Fresh done value (i.tags.map Prod.snd)) := by
  rw [Source.given, Source.wanted]
  by_cases ranges : src.any_tags = []
  · rw [if_neg (not_not_intro ranges), if_neg (not_not_intro ranges),
      flatMap_eq_iff fun i _ => i.length_given done value, forall_prop_of_true ranges]
    exact forall₂_congr fun i _ => i.given_iff (begun ranges)
  · rw [if_pos ranges, if_pos ranges]
    exact iff_of_true rfl fun none => absurd none ranges

theorem texts_flatMap {items : List Item} {ranges : List Range}
    (held : List.Forall₂ (fun i r => Item.Holds i done r) items ranges) :
    texts (ranges.flatMap (t.taken smap)) = items.flatMap (·.given done (t.current smap)) := by
  induction held with
  | nil => rfl
  | cons holds held ih => rw [List.flatMap_cons, List.flatMap_cons, texts_append, holds.taken, ih]

/-- **What `makeTags` gives**, source by source, and the sections after it. -/
theorem makeTags_given (held : Held s rendered tagsmap) :
    texts (makeTags smap lst tagsmap).1 =
        (meetings smap lst rendered).flatMap (fun m => m.1.toSource.given s m.2 (m.1.current smap)) ∧
      Held s (renderings smap lst rendered) (makeTags smap lst tagsmap).2.2 := by
  induction lst generalizing rendered tagsmap with
  | nil => exact ⟨rfl, held⟩
  | cons t lst ih =>
    rw [makeTags, meetings, List.flatMap_cons, Source.given, renderings, List.foldl_cons, ← renderings]
    by_cases ranges : t.any_tags = []
    · have after := ih (held.met smap ranges)
      rw [if_neg (not_not_intro ranges), if_neg (not_not_intro ranges), ← texts_flatMap (held.updated ranges),
        ← after.1]
      exact ⟨texts_append _ _, after.2⟩
    · have after := ih held
      rw [if_pos ranges, if_pos ranges, rendered_of_any ranges, ← after.1]
      refine ⟨(texts_append _ _).trans (congrArg (· ++ _) ?_), after.2⟩
      split <;> rfl

theorem makeTags_sources (smap : ObjectId → Option Int) (lst : List TagsInfo) (tagsmap : Text → List Range) :
    (makeTags smap lst tagsmap).2.1.map TagsInfo.toSource = lst.map TagsInfo.toSource := by
  induction lst generalizing tagsmap with
  | nil => rfl
  | cons t lst ih =>
    rw [makeTags]
    split
    · exact congrArg (t.toSource :: ·) (ih _)
    · refine (congrArg ((t.met smap).toSource :: ·) (ih _)).trans ?_
      have same : (t.met smap).toSource = t.toSource := by
        rw [TagsInfo.met]
        split <;> rfl
      rw [same, List.map_cons]

theorem meetings_fst (smap : ObjectId → Option Int) (lst : List TagsInfo) (rendered : Renderings) :
    (meetings smap lst rendered).map Prod.fst = lst := by
  induction lst generalizing rendered with
  | nil => rfl
  | cons t lst ih => exact congrArg (t :: ·) (ih _)

theorem renderings_ne_nil {name : Text} (begun : rendered name ≠ []) : renderings smap lst rendered name ≠ [] := by
  induction lst generalizing rendered with
  | nil => exact begun
  | cons t lst ih => exact ih (rendered_ne_nil begun)

/-- **The sections of the sources that have been met** have been rendered. -/
def Begun (lst : List TagsInfo) (rendered : Renderings) : Prop :=
  ∀ t ∈ lst, t.any_tags = [] → t.initOk = true → rendered t.vit ≠ []

theorem Begun.rendered_ne_nil (begun : Begun (t :: lst) rendered) (ranges : t.any_tags = []) :
    t.rendered smap rendered t.vit ≠ [] := by
  rw [rendered_section ranges]
  by_cases renders : t.renders smap = true
  · rw [if_pos renders]
    simp
  · rw [if_neg renders]
    refine begun t List.mem_cons_self ranges ?_
    simp only [TagsInfo.renders, Bool.or_eq_true, Bool.not_eq_true', not_or, Bool.not_eq_false] at renders
    exact renders.2

theorem Begun.tail (begun : Begun (t :: lst) rendered) : Begun lst (t.rendered smap rendered) :=
  fun u member ranges ok => DynamicTags.rendered_ne_nil (begun u (List.mem_cons_of_mem _ member) ranges ok)

theorem Begun.meetings (begun : Begun lst rendered) :
    ∀ m ∈ meetings smap lst rendered, m.1.any_tags = [] → m.2 ≠ [] := by
  induction lst generalizing rendered with
  | nil => exact fun m member => absurd member List.not_mem_nil
  | cons t lst ih =>
    rw [DynamicTags.meetings, List.forall_mem_cons]
    exact ⟨begun.rendered_ne_nil, ih begun.tail⟩

theorem Begun.after (begun : Begun lst rendered) (smap : ObjectId → Option Int) :
    ∀ t ∈ lst, t.any_tags = [] → renderings smap lst rendered t.vit ≠ [] := by
  induction lst generalizing rendered with
  | nil => exact fun t member => absurd member List.not_mem_nil
  | cons t lst ih =>
    rw [List.forall_mem_cons]
    have here (ranges : t.any_tags = []) : renderings smap lst (t.rendered smap rendered) t.vit ≠ [] :=
      renderings_ne_nil (begun.rendered_ne_nil ranges)
    exact ⟨here, ih begun.tail⟩

/-! ### Calls -/

/-- **What holds after calls.** -/
structure Watched.Sound (w : Watched) (s : Setup) : Prop where
  held : Held s w.done w.config.tagsmap
  sources : ∀ id, (w.config.tags id).map (·.map TagsInfo.toSource) = s.sources id
  begun : ∀ id lst, w.config.tags id = some lst → Begun lst w.done

variable {w : Watched}

theorem load_sound (s : Setup) : Watched.Sound ⟨s.load, fun _ => []⟩ s where
  held name := by
    rw [Setup.load, List.forall₂_map_right_iff]
    exact List.forall₂_same.mpr fun i _ => loaded_holds i
  sources id := by
    rw [Setup.load, Option.map_map]
    have same : ((·.map TagsInfo.toSource) ∘ (·.map Source.loaded) : List Source → List Source) =
        fun sources => sources := by
      funext sources
      rw [Function.comp_apply, List.map_map]
      exact List.map_id _
    rw [same, Option.map_id']
  begun id lst found t member _ ok := by
    obtain ⟨sources, _, rfl⟩ := Option.map_eq_some_iff.mp found
    obtain ⟨src, _, rfl⟩ := List.mem_map.mp member
    cases ok

/-- **One call.** -/
theorem Watched.Sound.call (sound : w.Sound s) (c : Call) : (w.call c).Sound s := by
  cases c with
  | updateTags id value =>
    have same : (w.config.updateTags id value).2.tagsmap = w.config.tagsmap ∧
        (w.config.updateTags id value).2.tags = w.config.tags := by
      rw [ClickHouseTagsConfig.updateTags]
      split <;> exact ⟨rfl, rfl⟩
    refine ⟨?_, ?_, ?_⟩
    · rw [Watched.call, same.1]
      exact sound.held
    · rw [Watched.call, same.2]
      exact sound.sources
    · rw [Watched.call, same.2]
      exact sound.begun
  | getTags id =>
    cases found : w.config.tags id with
    | none =>
      rw [Watched.call, ClickHouseTagsConfig.getTags, found]
      exact sound
    | some lst =>
      have begun := sound.begun id lst found
      rw [Watched.call, ClickHouseTagsConfig.getTags, found]
      refine ⟨(makeTags_given sound.held).2, fun other => ?_, fun other lst' found' => ?_⟩
      · by_cases same : other = id
        · rw [same, ← sound.sources id, found]
          show (Function.update w.config.tags id _ id).map _ = _
          rw [Function.update_self, Option.map_some, makeTags_sources, Option.map_some]
        · rw [← sound.sources other]
          show (Function.update w.config.tags id _ other).map _ = _
          rw [Function.update_of_ne same]
      · have found' : Function.update w.config.tags id _ other = some lst' := found'
        show Begun lst' (renderings w.config.smap lst w.done)
        by_cases same : other = id
        · rw [same, Function.update_self] at found'
          obtain rfl := Option.some.inj found'
          -- The sources are the same as before, and all of them have been met.
          intro t member ranges _
          have known : t.toSource ∈ lst.map TagsInfo.toSource := by
            rw [← makeTags_sources w.config.smap lst w.config.tagsmap]
            exact List.mem_map_of_mem member
          obtain ⟨t', member', same'⟩ := List.mem_map.mp known
          have met := begun.after w.config.smap t' member'
          rw [show t'.any_tags = t.any_tags from congrArg Source.any_tags same',
            show t'.vit = t.vit from congrArg Source.vit same'] at met
          exact met ranges
        · rw [Function.update_of_ne same] at found'
          exact fun t member ranges ok => renderings_ne_nil (sound.begun other lst' found' t member ranges ok)

/-- **Any calls.** -/
theorem reached_sound (s : Setup) (calls : List Call) : (s.reached calls).Sound s := by
  induction calls using List.reverseRecOn with
  | nil => exact load_sound s
  | append_singleton calls c ih =>
    rw [Setup.reached, List.foldl_append]
    exact ih.call c

/-- **When `getTags` returns what is wanted.** -/
theorem Watched.Sound.shows_iff (sound : w.Sound s) (id : ObjectId) :
    texts (w.config.getTags id).1 = s.wanted w.config.smap id ↔ w.Fresh s id := by
  have sources := sound.sources id
  rw [Setup.wanted, ← sources, Watched.Fresh]
  cases found : w.config.tags id with
  | none =>
    rw [ClickHouseTagsConfig.getTags, found]
    exact iff_of_true rfl fun m member => absurd member List.not_mem_nil
  | some lst =>
    have wanted : ((Option.map (·.map TagsInfo.toSource) (some lst)).getD []).flatMap
        (fun src => src.wanted s ((w.config.smap src.sid).getD 0)) = (meetings w.config.smap lst w.done).flatMap
          fun m => m.1.toSource.wanted s (m.1.current w.config.smap) := by
      have known : lst.map TagsInfo.toSource =
          (meetings w.config.smap lst w.done).map (TagsInfo.toSource ∘ Prod.fst) := by
        rw [← List.map_map, meetings_fst]
      rw [Option.map_some, Option.getD_some, known, List.flatMap_map]
      rfl
    have given : texts (w.config.getTags id).1 = (meetings w.config.smap lst w.done).flatMap
        fun m => m.1.toSource.given s m.2 (m.1.current w.config.smap) := by
      rw [ClickHouseTagsConfig.getTags, found]
      exact (makeTags_given sound.held).1
    rw [given, wanted, Option.getD_some, flatMap_eq_iff fun m _ => m.1.length_given s m.2 _]
    exact forall₂_congr fun m member =>
      m.1.given_iff s (m.1.current w.config.smap) ((sound.begun id lst found).meetings m member)

end Proofs

/-- **The tags after any calls**: they are those that are wanted exactly if the texts that are asked for are right. -/
theorem getTags_iff (s : Setup) (calls : List Call) (id : ObjectId) :
    texts ((s.reached calls).config.getTags id).1 = s.wanted (s.reached calls).config.smap id ↔
      (s.reached calls).Fresh s id :=
  (reached_sound s calls).shows_iff id

/-! ### Texts that stay behind -/

/-- Sensors 10 and 11 with the sources 8 and 9, and a section for both. -/
def twoSensors (item : Item) : Setup where
  smap id := if id = 8 ∨ id = 9 then some 0 else none
  sections name := if name = "myDynValue".toList then [item] else []
  sources id :=
    if id = 10 then some [⟨[], "myDynValue".toList, 8⟩]
    else if id = 11 then some [⟨[], "myDynValue".toList, 9⟩]
    else none

/-- The first item of the documented section `myDynValue`. -/
def documented : Item where
  vmin := -2 ^ 63
  vmax := 2 ^ 63 - 1
  tags := [("mykey".toList, "%v".toList), ("key2".toList, "%min".toList), ("key3".toList, "text".toList)]

/-- An item with a placeholder in its only value. -/
def single : Item := { documented with tags := [("mykey".toList, "%v".toList)] }

/-- **Texts that are not those of the current value**: the tag `key3` of the documented section, which has no
placeholder, keeps `mykey` at its first value; and a sensor shows the value that the source of another has had. -/
theorem getTags_behind :
    ¬ (texts (((twoSensors documented).reached [.updateTags 8 5, .getTags 10, .updateTags 8 6]).config.getTags 10).1 =
      (twoSensors documented).wanted
        ((twoSensors documented).reached [.updateTags 8 5, .getTags 10, .updateTags 8 6]).config.smap 10) ∧
    texts (((twoSensors single).reached [.updateTags 8 1, .getTags 10, .updateTags 9 2, .getTags 11]).config.getTags
      10).1 = [("mykey".toList, "2".toList)] ∧
    (twoSensors single).wanted ((twoSensors single).reached
      [.updateTags 8 1, .getTags 10, .updateTags 9 2, .getTags 11]).config.smap 10 =
        [("mykey".toList, "1".toList)] := by
  decide +kernel

end UniSet.BackendClickHouse.DynamicTags
