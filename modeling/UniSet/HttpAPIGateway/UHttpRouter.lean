/-
**`UHttpRouter`: the handler of a request.**

A handler is registered under a path whose segments are words or keys, `:name`. A request is handed to
the first handler whose path fits; the words at its keys are the keys of the context. Paths are cut by
`split`, which does not return for two separators in a row.

* `makePath`, `build`, `UHandlerList.add` — registering a handler; `compare`, `UHandlerList.call` — a
  request.
* `Fits` — the path fits a list of segments; `bound` — what a comparison writes to the keys, whether it
  succeeds or not.
* `segments_add` — the segments of a handler are those of the prefix and of its path.
* **`call_returns_iff`** — a request ends exactly when its path has no two separators in a row or
  no handler has a segment.
* **`call_first`** — it goes to the first handler that fits, which sees the words of the request under
  its own keys, and under other keys what earlier handlers that do not fit have left there.
-/

import Mathlib.Data.List.Chain
import Mathlib.Data.List.TakeWhile
import UniSet.Core.Split
import UniSet.Lib.Writes

namespace UniSet.HttpAPIGateway

open UniSet.Core (Str Single runs)
open UniSet.Lib

/-! ### Registering -/

/-- `UPath::PathMeta`. -/
structure PathMeta where
  path : Str := []
  key : Str := []
deriving DecidableEq, Repr

/-- `UPath::make_path`. -/
def makePath (path1 path2 : Str) : Str :=
  if path1 = [] then path2
  else if path2 = [] then path1
  else
    let path1_ok := path1.getLast? = some '/'
    let path2_ok := path2.head? = some '/'
    if path1_ok ∧ path2_ok then path1 ++ path2.tail
    else if path1_ok ∨ path2_ok then path1 ++ path2
    else path1 ++ '/' :: path2

/-- The word up to a question mark. -/
def excludeOptions (s : Str) : Str := s.takeWhile (· ≠ '?')

/-- The last word is cut. -/
def cutLast (v : List Str) : List Str := v.dropLast ++ (v.getLast?.map excludeOptions).toList

/-- A segment: the key, or the word. -/
def pathMeta (s : Str) : PathMeta :=
  if s.head? = some ':' then { key := s.tail } else { path := s }

/-- `UPath::build`; `none` if `split` has not returned by then. -/
def build (fuel : Nat) (path : Str) : Option (List PathMeta) :=
  if path = [] then some []
  else (Core.split fuel path '/').map fun v => (cutLast v).map pathMeta

/-- `UHttpContext::Keys`. -/
abbrev Keys := Str → Option Str

/-- A registered path with its handler. -/
structure Handler (H : Type) where
  segments : List PathMeta
  handler : H

structure UHandlerList (H : Type) where
  handlers : List (Handler H) := []
  pathPrefix : Str := []

variable {H : Type}

/-- `UHandlerList::add`. -/
def UHandlerList.add (fuel : Nat) (list : UHandlerList H) (path : Str) (h : H) :
    Option (UHandlerList H) :=
  (build fuel (makePath list.pathPrefix path)).map fun segments =>
    { list with handlers := list.handlers ++ [⟨segments, h⟩] }

/-! ### A request -/

/-- The loop of `compare`, over words and segments of one number. -/
def compareLoop : List PathMeta → List Str → Keys → Bool × Keys
  | segment :: segments, word :: mdata, keys =>
    if segment.key ≠ [] then
      compareLoop segments mdata (Function.update keys segment.key (some word))
    else if word ≠ segment.path then (false, keys)
    else compareLoop segments mdata keys
  | _, _, keys => (true, keys)

/-- The words of a request: the last is cut unless a separator stands at the end. -/
def wordsOf (path : Str) (mdata : List Str) : List Str :=
  if path.getLast? = some '/' then mdata else cutLast mdata

/-- `UPath::compare`, with the keys it leaves. -/
def compare (fuel : Nat) (segments : List PathMeta) (path : Str) (keys : Keys) : Option (Bool × Keys) :=
  if path = [] ∨ segments = [] then some (false, keys)
  else (Core.split fuel path '/').map fun mdata =>
    if (wordsOf path mdata).length ≠ segments.length then (false, keys)
    else compareLoop segments (wordsOf path mdata) keys

/-- The loop of `UHandlerList::call`: all comparisons write to the same keys. -/
def callLoop (fuel : Nat) (path : Str) : List (Handler H) → Keys → Option (Option (H × Keys))
  | [], _ => some none
  | h :: handlers, keys =>
    (compare fuel h.segments path keys).bind fun result =>
      if result.1 then some (some (h.handler, result.2)) else callLoop fuel path handlers result.2

/-- `UHandlerList::call`: the handler that is called with the keys of its context. -/
def UHandlerList.call (fuel : Nat) (list : UHandlerList H) (path : Str) : Option (Option (H × Keys)) :=
  callLoop fuel path list.handlers fun _ => none

/-- The methods of a request that are told apart. -/
inductive Method
  | HTTP_GET | HTTP_POST | other
deriving DecidableEq, Repr

structure UHttpRouter (H : Type) where
  hget : UHandlerList H := {}
  hpost : UHandlerList H := {}

/-- `UHttpRouter::call`, with the path of the request's address. -/
def UHttpRouter.call (fuel : Nat) (router : UHttpRouter H) (method : Method) (path : Str) :
    Option (Option (H × Keys)) :=
  match method with
  | .HTTP_GET => router.hget.call fuel path
  | .HTTP_POST => router.hpost.call fuel path
  | .other => some none

/-! ### What fits -/

/-- A word stands where the segment allows it. -/
def agrees (segment : PathMeta) (word : Str) : Bool := segment.key ≠ [] || word = segment.path

/-- The words of a request. -/
def requestWords (path : Str) : List Str := wordsOf path (runs '/' path)

/-- **The path fits the segments.** -/
def Fits (segments : List PathMeta) (path : Str) : Prop :=
  segments ≠ [] ∧ segments.length = (requestWords path).length ∧
    (segments.zip (requestWords path)).all (fun pair => agrees pair.1 pair.2) = true

instance (segments : List PathMeta) (path : Str) : Decidable (Fits segments path) :=
  inferInstanceAs (Decidable (_ ∧ _))

/-- The keys among segments with the words there. -/
def keyed (pairs : List (PathMeta × Str)) : List (Str × Str) :=
  (pairs.filter fun pair => pair.1.key ≠ []).map fun pair => (pair.1.key, pair.2)

/-- **What a comparison writes**: the keys before the first word that differs. -/
def bound (segments : List PathMeta) (path : Str) : List (Str × Str) :=
  if segments.length = (requestWords path).length then
    keyed ((segments.zip (requestWords path)).takeWhile fun pair => agrees pair.1 pair.2)
  else []

/-- The keys after some writes. -/
def storeKeys (keys : Keys) (writes : List (Str × Str)) : Keys :=
  writeAll Prod.fst (fun w => some w.2) keys writes

theorem storeKeys_append (keys : Keys) (first second : List (Str × Str)) :
    storeKeys keys (first ++ second) = storeKeys (storeKeys keys first) second := List.foldl_append

theorem storeKeys_apply (keys : Keys) (writes : List (Str × Str)) (k : Str) :
    storeKeys keys writes k = ((writes.reverse.lookup k).or (keys k)) := by
  induction writes using List.reverseRecOn with
  | nil => rfl
  | append_singleton writes last ih =>
    rw [storeKeys_append, List.reverse_append, List.reverse_singleton, List.singleton_append,
      List.lookup_cons]
    by_cases same : k = last.1
    · subst same
      simp [storeKeys, writeAll]
    · rw [beq_false_of_ne same, ← ih]
      simp [storeKeys, writeAll, same]

theorem compareLoop_eq (segments : List PathMeta) (words : List Str) (keys : Keys) :
    compareLoop segments words keys
      = ((segments.zip words).all (fun pair => agrees pair.1 pair.2),
          storeKeys keys (keyed ((segments.zip words).takeWhile fun pair => agrees pair.1 pair.2))) := by
  induction segments generalizing words keys with
  | nil => rfl
  | cons segment segments ih =>
    cases words with
    | nil => rfl
    | cons word words =>
      rw [compareLoop, List.zip_cons_cons, List.all_cons, List.takeWhile_cons]
      by_cases key : segment.key = []
      · by_cases same : word = segment.path
        · simp [agrees, key, same, ih, keyed]
        · simp [agrees, key, same, keyed, storeKeys, writeAll]
      · simp [agrees, key, ih, keyed, storeKeys, writeAll]

variable {segments : List PathMeta} {path : Str} {fuel : Nat} {handlers : List (Handler H)}

/-- A comparison that returns tells whether the path fits, and writes what it binds. -/
theorem compare_some {keys : Keys} {result : Bool × Keys}
    (returned : compare fuel segments path keys = some result) :
    result = (decide (Fits segments path), storeKeys keys (bound segments path)) := by
  unfold compare at returned
  split_ifs at returned with trivial
  · obtain rfl := Option.some.inj returned
    obtain rfl | rfl := trivial
    · have words : requestWords [] = [] := rfl
      have unfit : ¬ Fits segments [] := fun fits => by
        have := fits.2.1
        rw [words] at this
        exact fits.1 (List.length_eq_zero_iff.mp this)
      have nothing : bound segments [] = [] := by
        simp [bound, words, keyed]
      rw [nothing, decide_eq_false unfit]
      rfl
    · have unfit : ¬ Fits [] path := fun fits => fits.1 rfl
      have nothing : bound [] path = [] := by simp [bound, keyed]
      rw [nothing, decide_eq_false unfit]
      rfl
  · obtain ⟨nonempty, segmented⟩ := not_or.mp trivial
    obtain ⟨mdata, words, rfl⟩ := Option.map_eq_some_iff.mp returned
    obtain ⟨-, rfl⟩ := Core.scan_some words
    by_cases long : segments.length = (requestWords path).length
    · rw [if_neg fun other => other long.symm, compareLoop_eq, bound, if_pos long]
      refine Prod.ext ?_ rfl
      rw [Bool.eq_iff_iff, decide_eq_true_eq]
      exact ⟨fun all => ⟨segmented, long, all⟩, fun fits => fits.2.2⟩
    · have unfit : ¬ Fits segments path := fun fits => long fits.2.1
      rw [if_pos fun same => long same.symm, bound, if_neg long, decide_eq_false unfit]
      rfl

/-- A comparison returns for a path that `split` returns for, and for no segments. -/
theorem compare_enough (ends : Single '/' path ∨ segments = []) (enough : path.length < fuel)
    (keys : Keys) :
    (compare fuel segments path keys).isSome := by
  unfold compare
  split_ifs with trivial
  · rfl
  · have single := ends.resolve_right fun none => trivial (.inr none)
    rw [Core.split, Core.scan_enough single enough]
    rfl

theorem ends_of_compare {keys : Keys} (returned : (compare fuel segments path keys).isSome) :
    Single '/' path ∨ segments = [] := by
  unfold compare at returned
  split_ifs at returned with trivial
  · obtain rfl | none := trivial
    · exact .inl (by decide)
    · exact .inr none
  · rw [Option.isSome_map] at returned
    exact .inl (Core.scan_isSome returned).1

/-- What the loop returns: no handler fits, or it stops at the first that does. -/
theorem callLoop_some {keys : Keys} {result : Option (H × Keys)}
    (returned : callLoop fuel path handlers keys = some result) :
    (result = none ∧ ∀ h ∈ handlers, ¬ Fits h.segments path) ∨
      ∃ before h after, handlers = before ++ h :: after ∧ Fits h.segments path ∧
        (∀ b ∈ before, ¬ Fits b.segments path) ∧
        result = some (h.handler,
          storeKeys keys ((before.flatMap fun b => bound b.segments path) ++ bound h.segments path)) := by
  induction handlers generalizing keys with
  | nil => exact .inl ⟨(Option.some.inj returned).symm, by simp⟩
  | cons first rest ih =>
    obtain ⟨compared, returned_first, returned⟩ := Option.bind_eq_some_iff.mp returned
    obtain rfl := compare_some returned_first
    by_cases fits : Fits first.segments path
    · rw [decide_eq_true fits, if_pos rfl, Option.some.injEq] at returned
      exact .inr ⟨[], first, rest, rfl, fits, by simp, by rw [← returned]; rfl⟩
    · rw [decide_eq_false fits, if_neg (by simp)] at returned
      obtain ⟨nobody, none⟩ | ⟨before, h, after, rfl, here, earlier, got⟩ := ih returned
      · exact .inl ⟨nobody, List.forall_mem_cons.mpr ⟨fits, none⟩⟩
      · refine .inr ⟨first :: before, h, after, rfl, here, List.forall_mem_cons.mpr ⟨fits, earlier⟩, ?_⟩
        rw [got, List.flatMap_cons, List.append_assoc, storeKeys_append keys]

/-- The loop returns if every comparison does. -/
theorem callLoop_isSome
    (returns : ∀ h ∈ handlers, ∀ keys, (compare fuel h.segments path keys).isSome) (keys : Keys) :
    (callLoop fuel path handlers keys).isSome := by
  induction handlers generalizing keys with
  | nil => rfl
  | cons first rest ih =>
    obtain ⟨result, compared⟩ := Option.isSome_iff_exists.mp (returns first List.mem_cons_self keys)
    rw [callLoop, compared, Option.bind_some]
    split_ifs
    · rfl
    · exact ih (fun h member => returns h (List.mem_cons_of_mem _ member)) result.2

/-- A loop that returns has compared no segments with a path that `split` does not return for. -/
theorem ends_of_callLoop {keys : Keys} (returned : (callLoop fuel path handlers keys).isSome) :
    Single '/' path ∨ ∀ h ∈ handlers, h.segments = [] := by
  refine or_iff_not_imp_left.mpr fun double => ?_
  induction handlers generalizing keys with
  | nil => exact List.forall_mem_nil _
  | cons first rest ih =>
    rw [callLoop] at returned
    obtain ⟨compared, compares⟩ : ∃ compared, compare fuel first.segments path keys = some compared :=
      Option.isSome_iff_exists.mp (Option.isSome_of_isSome_bind returned)
    have trivial : first.segments = [] :=
      (ends_of_compare (Option.isSome_iff_exists.mpr ⟨compared, compares⟩)).resolve_left double
    have unfit : ¬ Fits first.segments path := fun fits => fits.1 trivial
    rw [compares, Option.bind_some, compare_some compares, decide_eq_false unfit,
      if_neg (by simp)] at returned
    exact List.forall_mem_cons.mpr ⟨trivial, ih returned⟩

/-- **A request ends** exactly when its path has no two separators in a row, or no handler has a
segment. -/
theorem call_returns_iff (list : UHandlerList H) (path : Str) :
    (∃ fuel, (list.call fuel path).isSome) ↔
      Single '/' path ∨ ∀ h ∈ list.handlers, h.segments = [] := by
  constructor
  · rintro ⟨fuel, returned⟩
    exact ends_of_callLoop returned
  · intro ends
    refine ⟨path.length + 1, callLoop_isSome (fun h member keys => ?_) _⟩
    exact compare_enough (ends.imp_right fun none => none h member) (Nat.lt_succ_self _) keys

/-- What a path that fits binds: all keys of the handler. -/
theorem bound_of_fits (fits : Fits segments path) :
    bound segments path = keyed (segments.zip (requestWords path)) := by
  have all : ∀ pair ∈ segments.zip (requestWords path), agrees pair.1 pair.2 = true :=
    List.all_eq_true.mp fits.2.2
  rw [bound, if_pos fits.2.1, List.takeWhile_eq_self_iff.mpr all]

/-- **The handler of a request**: none if none fits, and else the first that does. It sees under its
own keys the last words of the request there, and under any other key the last word that a handler
before it has bound to it without fitting. -/
theorem call_first (list : UHandlerList H) (path : Str) (fuel : Nat) (result : Option (H × Keys))
    (returned : list.call fuel path = some result) :
    (result = none ∧ ∀ h ∈ list.handlers, ¬ Fits h.segments path) ∨
      ∃ before h after keys, list.handlers = before ++ h :: after ∧ Fits h.segments path ∧
        (∀ b ∈ before, ¬ Fits b.segments path) ∧ result = some (h.handler, keys) ∧
        ∀ k, keys k = ((keyed (h.segments.zip (requestWords path))).reverse.lookup k).or
          ((before.flatMap fun b => bound b.segments path).reverse.lookup k) := by
  obtain nobody | ⟨before, h, after, here, fits, earlier, got⟩ := callLoop_some returned
  · exact .inl nobody
  · refine .inr ⟨before, h, after, _, here, fits, earlier, got, fun k => ?_⟩
    rw [storeKeys_apply, List.reverse_append, List.lookup_append, Option.or_none, bound_of_fits fits]

/-- Two handlers; the first begins with a key. -/
def sampleList : UHandlerList String where
  handlers := [⟨[{ key := "a".toList }, { path := "x".toList }], "first"⟩,
    ⟨[{ path := "root".toList }, { key := "b".toList }], "second"⟩]

/-- What a request for the second handler calls. -/
def sampleResult : Option (String × Keys) := (sampleList.call 8 "/root/y".toList).getD none

theorem second_called :
    (sampleResult = none ∧ ∀ h ∈ sampleList.handlers, ¬ Fits h.segments "/root/y".toList) ∨
      ∃ before h after keys, sampleList.handlers = before ++ h :: after ∧
        Fits h.segments "/root/y".toList ∧ (∀ b ∈ before, ¬ Fits b.segments "/root/y".toList) ∧
        sampleResult = some (h.handler, keys) ∧
        ∀ k, keys k = ((keyed (h.segments.zip (requestWords "/root/y".toList))).reverse.lookup k).or
          ((before.flatMap fun b => bound b.segments "/root/y".toList).reverse.lookup k) :=
  call_first sampleList "/root/y".toList 8 sampleResult rfl

/-- The handler that is called sees a key of the one that is not. -/
example : sampleResult.map (fun result => (result.1, result.2 "b".toList, result.2 "a".toList))
    = some ("second", some "y".toList, some "root".toList) := by
  decide

/-! ### The segments of a handler -/

section Segments

variable {c : Char}

/-- The words before a separator and those behind it. -/
theorem runs_append (a b : Str) : runs c (a ++ c :: b) = runs c a ++ runs c b := by
  induction n : a.length using Nat.strong_induction_on generalizing a with
  | _ n ih =>
    subst n
    by_cases member : c ∈ a
    · obtain ⟨word, rest, rfl, free⟩ := List.eq_append_cons_of_mem member
      have fewer : rest.length < (word ++ c :: rest).length := by
        rw [List.length_append, List.length_cons]
        omega
      have later := ih _ fewer rest rfl
      rw [List.append_assoc, List.cons_append]
      by_cases none : word = []
      · rw [none, List.nil_append, List.nil_append, Core.runs_cons, Core.runs_cons, later]
      · rw [Core.runs_word_cons free none, Core.runs_word_cons free none, later, List.cons_append]
    · by_cases none : a = []
      · rw [none, List.nil_append, Core.runs_cons, Core.runs_nil, List.nil_append]
      · rw [Core.runs_word_cons member none, Core.runs_word member none, List.singleton_append]

/-- No two separators in a row, as a property of neighbours. -/
theorem single_iff_isChain (str : Str) :
    Single c str ↔ str.IsChain fun a b => ¬ (a = c ∧ b = c) := by
  unfold Core.Single
  induction str with
  | nil => simp
  | cons a str ih =>
    rw [List.infix_cons_iff, not_or, ih]
    cases str with
    | nil => simp
    | cons b str =>
      rw [List.isChain_cons_cons, List.cons_prefix_cons, List.cons_prefix_cons]
      refine and_congr_left fun _ => not_congr ?_
      simp [eq_comm]

theorem single_append {a b : Str} (apart : ¬ (a.getLast? = some c ∧ b.head? = some c)) :
    Single c (a ++ b) ↔ Single c a ∧ Single c b := by
  rw [single_iff_isChain, single_iff_isChain, single_iff_isChain, List.isChain_append]
  refine and_congr_right fun _ => and_iff_left fun x last y head meet => apart ?_
  obtain ⟨rfl, rfl⟩ := meet
  exact ⟨last, head⟩

/-- **Paths are joined at one separator**: the words are those of both, and `split` returns for the
path made exactly if it does for both. -/
theorem makePath_spec (path1 path2 : Str) :
    runs '/' (makePath path1 path2) = runs '/' path1 ++ runs '/' path2 ∧
      (Single '/' (makePath path1 path2) ↔ Single '/' path1 ∧ Single '/' path2) := by
  have empty : Single '/' [] := by decide
  unfold makePath
  by_cases first : path1 = []
  · rw [if_pos first, first]
    exact ⟨rfl, (and_iff_right empty).symm⟩
  by_cases second : path2 = []
  · rw [if_neg first, if_pos second, second]
    exact ⟨(List.append_nil _).symm, (and_iff_left empty).symm⟩
  rw [if_neg first, if_neg second]
  dsimp only
  by_cases path1_ok : path1.getLast? = some '/'
  · obtain ⟨a, rfl⟩ := List.getLast?_eq_some_iff.mp path1_ok
    by_cases path2_ok : path2.head? = some '/'
    · obtain ⟨b, rfl⟩ := List.head?_eq_some_iff.mp path2_ok
      rw [if_pos ⟨path1_ok, path2_ok⟩, List.tail_cons, List.append_assoc, List.singleton_append]
      refine ⟨?_, ?_⟩
      · rw [runs_append, runs_append, Core.runs_nil, List.append_nil, Core.runs_cons]
      · simp only [single_iff_isChain]
        exact List.isChain_split
    · rw [if_neg fun both => path2_ok both.2, if_pos (.inl path1_ok)]
      refine ⟨?_, single_append fun both => path2_ok both.2⟩
      rw [List.append_assoc, List.singleton_append, runs_append, runs_append, Core.runs_nil,
        List.append_nil]
  · rw [if_neg fun both => path1_ok both.1]
    by_cases path2_ok : path2.head? = some '/'
    · obtain ⟨b, rfl⟩ := List.head?_eq_some_iff.mp path2_ok
      rw [if_pos (.inr path2_ok)]
      exact ⟨by rw [runs_append, Core.runs_cons], single_append fun both => path1_ok both.1⟩
    · rw [if_neg (not_or.mpr ⟨path1_ok, path2_ok⟩)]
      refine ⟨runs_append _ _, ?_⟩
      rw [single_append fun both => path1_ok both.1]
      refine and_congr_right fun _ => ?_
      have alone : Single '/' ['/'] := by decide
      rw [← List.singleton_append, single_append fun both => path2_ok both.2, and_iff_right alone]

/-- **The segments of a handler** are those of the prefix and of its path; it is registered if both
have no two separators in a row. -/
theorem segments_add (list : UHandlerList H) (path : Str) (h : H) :
    ((∃ fuel, (list.add fuel path h).isSome) ↔ Single '/' list.pathPrefix ∧ Single '/' path) ∧
    ∀ fuel added, list.add fuel path h = some added →
      added = { list with handlers := list.handlers ++
        [⟨(cutLast (runs '/' list.pathPrefix ++ runs '/' path)).map pathMeta, h⟩] } := by
  obtain ⟨words, single⟩ := makePath_spec list.pathPrefix path
  unfold UHandlerList.add build
  by_cases empty : makePath list.pathPrefix path = []
  · have none : Single '/' [] := by decide
    rw [empty] at words single
    simp only [if_pos empty, Option.map_some, Option.isSome_some, Option.some.injEq]
    refine ⟨iff_of_true ⟨0, trivial⟩ (single.mp none), ?_⟩
    rintro _ added rfl
    rw [← words]
    rfl
  · simp only [if_neg empty, Option.isSome_map, Option.map_map]
    rw [← single, ← words]
    refine ⟨⟨fun ⟨fuel, returned⟩ => (Core.scan_isSome returned).1, fun fine => ?_⟩, ?_⟩
    · refine ⟨(makePath list.pathPrefix path).length + 1, ?_⟩
      rw [Core.split, Core.scan_enough fine (Nat.lt_succ_self _)]
      rfl
    · intro fuel added got
      obtain ⟨v, returned, rfl⟩ := Option.map_eq_some_iff.mp got
      rw [(Core.scan_some returned).2]
      rfl

end Segments

end UniSet.HttpAPIGateway
