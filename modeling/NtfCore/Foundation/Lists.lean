import Mathlib.Algebra.GroupWithZero.Nat
import Mathlib.Data.List.Perm.Basic

/-!
Contract: lists as queues, seen through a filter.

Owns: updating the last element that satisfies a predicate or the element at an
index, how a filter splits when the predicate grows, and when a partial map
succeeds.
-/

namespace NtfCore.Foundation.Lists

open List

variable {α β : Type}

/-- Apply `change` to the last element that satisfies `test`. -/
def modifyLast (test : α -> Bool) (change : α -> α) : List α -> List α
  | [] => []
  | head :: rest =>
    if rest.any test then head :: modifyLast test change rest
    else if test head then change head :: rest
    else head :: rest

variable {test : α -> Bool} {init : List α} {last : α}

/-- Where the last element that satisfies `test` stands. -/
theorem modifyLast_split {items : List α} (filtered : items.filter test = init ++ [last]) :
    ∃ before after, items = before ++ last :: after ∧ before.filter test = init ∧
      after.filter test = [] ∧ test last = true ∧
      ∀ change, modifyLast test change items = before ++ change last :: after := by
  induction items generalizing init with
  | nil => simp at filtered
  | cons head rest ih =>
    by_cases later : rest.any test = true
    · have unfolded : ∀ change, modifyLast test change (head :: rest) =
          head :: modifyLast test change rest := by
        intro change
        simp [modifyLast, later]
      by_cases here : test head = true
      · rw [filter_cons_of_pos here] at filtered
        cases init with
        | nil =>
          have restEmpty : rest.filter test = [] := (cons_eq_cons.mp filtered).2
          obtain ⟨item, mem, holds⟩ := any_eq_true.mp later
          have inFilter : item ∈ rest.filter test := mem_filter.mpr ⟨mem, holds⟩
          simp [restEmpty] at inFilter
        | cons first others =>
          obtain ⟨sameHead, restFiltered⟩ := cons_eq_cons.mp filtered
          obtain ⟨before, after, split, beforeEq, afterEq, holds, modified⟩ := ih restFiltered
          refine ⟨head :: before, after, by rw [split]; rfl, ?_, afterEq, holds, ?_⟩
          · rw [filter_cons_of_pos here, beforeEq, sameHead]
          · intro change
            rw [unfolded, modified]
            rfl
      · rw [filter_cons_of_neg here] at filtered
        obtain ⟨before, after, split, beforeEq, afterEq, holds, modified⟩ := ih filtered
        refine ⟨head :: before, after, by rw [split]; rfl, ?_, afterEq, holds, ?_⟩
        · rw [filter_cons_of_neg here, beforeEq]
        · intro change
          rw [unfolded, modified]
          rfl
    · have restEmpty : rest.filter test = [] := by
        rw [filter_eq_nil_iff]
        intro item mem holds
        exact later (any_eq_true.mpr ⟨item, mem, holds⟩)
      by_cases here : test head = true
      · rw [filter_cons_of_pos here, restEmpty] at filtered
        have single : init = [] ∧ head = last := by
          cases init with
          | nil => exact ⟨rfl, (cons_eq_cons.mp filtered).1⟩
          | cons =>
            have length := congrArg length filtered
            simp at length
        obtain ⟨initEmpty, isHead⟩ := single
        rw [← isHead, initEmpty]
        refine ⟨[], rest, rfl, rfl, restEmpty, here, ?_⟩
        intro _
        simp [modifyLast, later, here]
      · rw [filter_cons_of_neg here, restEmpty] at filtered
        simp at filtered

/-- When the predicate grows, the filter gains the elements that did not satisfy
it before. -/
theorem filter_perm_of_imp {before after : α -> Bool} (items : List α)
    (grows : ∀ item ∈ items, before item = true -> after item = true) : (items.filter after).Perm
      (items.filter before ++ (items.filter fun item => !before item).filter after) := by
  have parts := filter_append_perm before (items.filter after)
  refine parts.symm.trans (Perm.of_eq ?_)
  rw [filter_filter, filter_filter, filter_filter]
  congr 1
  · apply filter_congr
    intro item mem
    cases tested : before item with
    | false => rfl
    | true => simp [grows item mem tested]
  · apply filter_congr
    intro _ _
    exact Bool.and_comm _ _

variable {relation : α -> β -> Prop} {right : List β} {left : List α}

theorem filterMap_eq_of_forall₂ {γ : Type} {f : α -> Option γ} {g : β -> Option γ}
    (related : Forall₂ relation left right) (agree : ∀ a b, relation a b -> f a = g b) :
    left.filterMap f = right.filterMap g := by
  induction related with
  | nil => rfl
  | cons headRelated _ ih => rw [filterMap_cons, filterMap_cons, agree _ _ headRelated, ih]

variable {item : α}

theorem related_of_mem (related : Forall₂ relation left right) (mem : item ∈ left) :
    ∃ partner ∈ right, relation item partner := by
  induction related with
  | nil => simp at mem
  | cons headRelated _ ih =>
    rcases mem_cons.mp mem with isHead | inTail
    · exact ⟨_, mem_cons_self, isHead ▸ headRelated⟩
    · obtain ⟨partner, inRight, partners⟩ := ih inTail
      exact ⟨partner, mem_cons_of_mem _ inRight, partners⟩

theorem pairwise_of_forall₂ {before : β -> β -> Prop} {order : α -> α -> Prop}
    (related : Forall₂ relation left right) (sorted : right.Pairwise before)
    (transport : ∀ a b a' b', relation a b -> relation a' b' -> before b b' -> order a a') :
    left.Pairwise order := by
  induction related with
  | nil => exact Pairwise.nil
  | cons headRelated tailRelated ih =>
    obtain ⟨first, rest⟩ := pairwise_cons.mp sorted
    refine pairwise_cons.mpr ⟨?_, ih rest⟩
    intro _ mem
    obtain ⟨partner, inRight, partners⟩ := related_of_mem tailRelated mem
    exact transport _ _ _ _ headRelated partners (first partner inRight)

theorem forall₂_append {left left' : List α} {right right' : List β}
    (first : Forall₂ relation left right) (second : Forall₂ relation left' right') :
    Forall₂ relation (left ++ left') (right ++ right') :=
  rel_append first second

/-- The partner of the last element is the last element. -/
theorem forall₂_concat (related : Forall₂ relation (init ++ [last]) right) :
    ∃ rightInit rightLast, right = rightInit ++ [rightLast] ∧
      Forall₂ relation init rightInit ∧ relation last rightLast := by
  induction init generalizing right with
  | nil =>
    obtain ⟨partner, rest, partners, restRelated, split⟩ := forall₂_cons_left_iff.mp related
    rw [forall₂_nil_left_iff.mp restRelated] at split
    exact ⟨[], partner, split, Forall₂.nil, partners⟩
  | cons _ _ ih =>
    obtain ⟨partner, _, partners, restRelated, split⟩ := forall₂_cons_left_iff.mp related
    obtain ⟨rightInit, rightLast, restSplit, initRelated, lastRelated⟩ := ih restRelated
    refine ⟨partner :: rightInit, rightLast, ?_, Forall₂.cons partners initRelated, lastRelated⟩
    rw [split, restSplit, cons_append]

variable {items : List α} {index : Nat}

/-- Where the element at an index stands, before and after it is replaced. -/
theorem set_split (found : items[index]? = some item) (value : α) :
    ∃ before after, items = before ++ item :: after ∧
      items.set index value = before ++ value :: after := by
  obtain ⟨bound, isItem⟩ := List.getElem?_eq_some_iff.mp found
  refine ⟨items.take index, items.drop (index + 1), ?_, ?_⟩
  · rw [← isItem, getElem_cons_drop, take_append_drop]
  · exact set_eq_take_append_cons_drop.trans (if_pos bound)

/-- How many elements pass a test, before and after one of them is replaced. -/
theorem countP_set_add (test : α -> Bool) (found : items[index]? = some item) (value : α) :
    (items.set index value).countP test + (if test item then 1 else 0) =
      items.countP test + (if test value then 1 else 0) := by
  obtain ⟨_, _, isItems, isSet⟩ := set_split found value
  rw [isSet, isItems]
  simp only [countP_append, countP_cons]
  omega

/-- A sum over all elements, before and after one of them is replaced. -/
theorem sum_map_set_add (weight : α -> Nat) (found : items[index]? = some item) (value : α) :
    ((items.set index value).map weight).sum + weight item =
      (items.map weight).sum + weight value := by
  obtain ⟨_, _, isItems, isSet⟩ := set_split found value
  rw [isSet, isItems]
  simp only [map_append, map_cons, sum_append, sum_cons]
  omega

/-- Where the element at an index stands, before and after it is removed. -/
theorem eraseIdx_split (found : items[index]? = some item) :
    ∃ before after, items = before ++ item :: after ∧ items.eraseIdx index = before ++ after := by
  obtain ⟨_, isItem⟩ := List.getElem?_eq_some_iff.mp found
  refine ⟨items.take index, items.drop (index + 1), ?_, List.eraseIdx_eq_take_drop_succ items index⟩
  rw [← isItem, getElem_cons_drop, take_append_drop]

theorem filterMap_concat (partialMap : α -> Option β) (items : List α) (item : α) :
    (items ++ [item]).filterMap partialMap =
      items.filterMap partialMap ++ (partialMap item).toList := by
  cases isImage : partialMap item with
  | none | some _ => simp [isImage]

/-- When a test, once it succeeds, succeeds on all later elements, the elements on
which it fails come first. -/
theorem filter_append_filter (monotone : items.Pairwise fun a b => test a = true -> test b = true) :
    (items.filter fun item => !test item) ++ items.filter test = items := by
  induction items with
  | nil => rfl
  | cons head rest ih =>
    obtain ⟨headMonotone, restMonotone⟩ := pairwise_cons.mp monotone
    cases tested : test head with
    | false => simp [tested, ih restMonotone]
    | true =>
      have allPass : ∀ item ∈ rest, test item = true := fun item mem =>
        headMonotone item mem tested
      have kept : rest.filter test = rest := filter_eq_self.mpr allPass
      have dropped : (rest.filter fun item => !test item) = [] := by
        rw [filter_eq_nil_iff]
        intro item mem
        simp [allPass item mem]
      simp [tested, kept, dropped]

variable {partialMap : α -> Option β}

/-- A partial map succeeds on a list when it does so element by element. -/
theorem mapM_eq_some : left.mapM partialMap = some right ↔
      Forall₂ (fun a b => partialMap a = some b) left right := by
  induction left generalizing right with
  | nil => simp [eq_comm]
  | cons head rest ih =>
    rw [forall₂_cons_left_iff, mapM_cons]
    cases isHead : partialMap head with
    | none => simp
    | some =>
      cases isRest : rest.mapM partialMap with
      | none =>
        have refused : ∀ images, ¬ Forall₂ (fun a b => partialMap a = some b) rest images := by
          intro images related
          rw [ih.mpr related] at isRest
          contradiction
        simp [refused]
      | some images =>
        have unique : ∀ others,
            Forall₂ (fun a b => partialMap a = some b) rest others ↔ images = others := by
          intro _
          rw [← ih, isRest, Option.some.injEq]
        simp [unique, eq_comm]

theorem mapM_eq_none : items.mapM partialMap = none ↔ ∃ item ∈ items, partialMap item = none := by
  induction items with
  | nil => simp
  | cons head rest ih =>
    cases isHead : partialMap head with
    | none => simp [isHead]
    | some =>
      cases isRest : rest.mapM partialMap with
      | none | some _ => simpa [isHead, isRest] using ih

end NtfCore.Foundation.Lists
