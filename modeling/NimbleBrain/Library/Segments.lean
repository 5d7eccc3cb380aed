import Mathlib.Order.Lattice
import Mathlib.Data.List.Flatten
import Mathlib.Data.List.Perm.Basic

/- A log is kept in segments under ascending keys. An item is added at the end of a segment. -/

namespace NimbleBrain.Library

structure Segments (Key Item : Type) [LinearOrder Key] where
  list : List (Key × List Item)
  sorted : list.Pairwise fun first second => first.1 < second.1

namespace Segments

variable {Key Item : Type} [LinearOrder Key]

instance [DecidableEq Item] : DecidableEq (Segments Key Item) := fun first second =>
  decidable_of_iff (first.list = second.list) (by cases first; cases second; simp)

def empty : Segments Key Item := ⟨[], List.Pairwise.nil⟩

/-- The items from the lowest key to the highest one. -/
def items (segments : Segments Key Item) : List Item := segments.list.flatMap Prod.snd

def pushTo (key : Key) (item : Item) : List (Key × List Item) → List (Key × List Item)
  | [] => [(key, [item])]
  | (own, items) :: rest =>
      if key < own then (key, [item]) :: (own, items) :: rest
      else if key = own then (own, items ++ [item]) :: rest
      else (own, items) :: pushTo key item rest

variable {list : List (Key × List Item)} {change : List Item → List Item} {segments : Segments Key Item}

theorem mem_keys_pushTo {key own : Key} {item : Item} (member : own ∈ (pushTo key item list).map Prod.fst) :
    own = key ∨ own ∈ list.map Prod.fst := by
  induction list with
  | nil => exact .inl (by simpa [pushTo] using member)
  | cons segment rest ih =>
      rw [pushTo] at member
      split at member
      · simpa using member
      · split at member
        · exact .inr (by simpa using member)
        · rcases List.mem_cons.mp member with rfl | later
          · exact .inr (List.mem_cons_self ..)
          · exact (ih later).imp_right (List.mem_cons_of_mem _)

theorem pushTo_sorted (key : Key) (item : Item) (sorted : list.Pairwise fun first second => first.1 < second.1) :
    (pushTo key item list).Pairwise fun first second => first.1 < second.1 := by
  induction list with
  | nil => exact List.pairwise_singleton ..
  | cons segment rest ih =>
      obtain ⟨first, later⟩ := List.pairwise_cons.mp sorted
      rw [pushTo]
      split
      · rename_i before
        refine List.pairwise_cons.mpr ⟨fun other member => ?_, sorted⟩
        rcases List.mem_cons.mp member with rfl | member
        · exact before
        · exact lt_trans before (first other member)
      · split
        · exact List.pairwise_cons.mpr ⟨first, later⟩
        · rename_i notBefore apart
          refine List.pairwise_cons.mpr ⟨fun other member => ?_, ih later⟩
          rcases mem_keys_pushTo (List.mem_map_of_mem member) with same | old
          · exact same ▸ lt_of_le_of_ne (not_lt.mp notBefore) (Ne.symm apart)
          · obtain ⟨known, member, same⟩ := List.mem_map.mp old
            exact same ▸ first known member

/-- A new item goes to the end of the segment of its key. -/
def push (segments : Segments Key Item) (key : Key) (item : Item) : Segments Key Item where
  list := pushTo key item segments.list
  sorted := pushTo_sorted key item segments.sorted

/-- The segments whose key is kept. -/
def keep (segments : Segments Key Item) (kept : Key → Bool) : Segments Key Item where
  list := segments.list.filter fun segment => kept segment.1
  sorted := segments.sorted.filter _

/-- A change of the items of each segment. -/
def mapItems (segments : Segments Key Item) (change : List Item → List Item) : Segments Key Item where
  list := segments.list.map fun segment => (segment.1, change segment.2)
  sorted := List.pairwise_map.mpr segments.sorted

def updateFirstIn (test : List Item → Bool) (change : List Item → List Item) :
    List (Key × List Item) → List (Key × List Item)
  | [] => []
  | (key, items) :: rest =>
      if test items then (key, change items) :: rest else (key, items) :: updateFirstIn test change rest

omit [LinearOrder Key] in
theorem keys_updateFirstIn (test : List Item → Bool) (change : List Item → List Item)
    (list : List (Key × List Item)) : (updateFirstIn test change list).map Prod.fst = list.map Prod.fst := by
  induction list with
  | nil => rfl
  | cons segment rest ih =>
      rw [updateFirstIn]
      split
      · rfl
      · exact congrArg (segment.1 :: ·) ih

/-- A change of the first segment that meets the test. -/
def updateFirst (segments : Segments Key Item) (test : List Item → Bool) (change : List Item → List Item) :
    Segments Key Item where
  list := updateFirstIn test change segments.list
  sorted := by
    have keys := List.pairwise_map.mpr segments.sorted
    rw [← keys_updateFirstIn test change] at keys
    exact List.pairwise_map.mp keys

/-- The items of the highest segment that has any. -/
def newest (segments : Segments Key Item) : List Item :=
  ((segments.list.reverse.find? fun segment => !segment.2.isEmpty).map Prod.snd).getD []

theorem items_push (segments : Segments Key Item) (key : Key) (item : Item) :
    (segments.push key item).items.Perm (item :: segments.items) := by
  unfold push items
  dsimp only
  induction segments.list with
  | nil => simp [pushTo]
  | cons segment rest ih =>
      rw [pushTo]
      split
      · simp
      · split
        · simp
        · rw [List.flatMap_cons, List.flatMap_cons]
          exact (ih.append_left _).trans List.perm_middle

theorem items_keep_sublist (segments : Segments Key Item) (kept : Key → Bool) :
    (segments.keep kept).items.Sublist segments.items := List.filter_sublist.flatMap _

theorem items_mapItems :
    (segments.mapItems change).items = segments.list.flatMap fun segment => change segment.2 := by
  rw [items, mapItems, List.flatMap_map]

theorem forall₂_items_updateFirst {Related : Item → Item → Prop} {test : List Item → Bool}
    (refl : ∀ item, Related item item) (related : ∀ items, List.Forall₂ Related items (change items)) :
    List.Forall₂ Related segments.items (segments.updateFirst test change).items := by
  have same : ∀ items : List Item, List.Forall₂ Related items items := fun items =>
    List.forall₂_same.mpr fun item _ => refl item
  unfold items updateFirst
  dsimp only
  induction segments.list with
  | nil => exact .nil
  | cons segment rest ih =>
      rw [updateFirstIn]
      split
      · exact List.rel_append (related _) (same _)
      · exact List.rel_append (same _) ih

/-- The items before the highest segment with items stand before it. -/
theorem items_eq_append_newest (segments : Segments Key Item) :
    ∃ earlier, segments.items = earlier ++ segments.newest ∧ (segments.newest = [] → earlier = []) := by
  unfold newest
  cases found : segments.list.reverse.find? fun segment => !segment.2.isEmpty with
  | none =>
      refine ⟨[], ?_, fun _ => rfl⟩
      have none_has := List.find?_eq_none.mp found
      rw [items, List.nil_append, Option.map_none, Option.getD_none, List.flatMap_eq_nil_iff]
      intro segment member
      simpa using none_has segment (List.mem_reverse.mpr member)
  | some segment =>
      obtain ⟨some_item, after, before, split, empty⟩ := List.find?_eq_some_iff_append.mp found
      have list : segments.list = before.reverse ++ segment :: after.reverse := by
        rw [← List.reverse_reverse segments.list, split]
        simp
      refine ⟨before.reverse.flatMap Prod.snd, ?_, ?_⟩
      · have nothing : after.reverse.flatMap Prod.snd = [] := by
          rw [List.flatMap_eq_nil_iff]
          intro other member
          simpa using empty other (List.mem_reverse.mp member)
        rw [items, list, List.flatMap_append, List.flatMap_cons, nothing, List.append_nil]
        rfl
      · intro nothing
        simp at some_item nothing
        exact absurd nothing some_item

end Segments

end NimbleBrain.Library
