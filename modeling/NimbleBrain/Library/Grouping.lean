import Mathlib.Algebra.BigOperators.Group.List.Basic
import NimbleBrain.Library.OrderedMap

/- Items are grouped under keys, and each group is folded as it grows. -/

namespace NimbleBrain.Library

variable {Item Key Value Amount : Type} [DecidableEq Key]

/-- An item joins the group of its key, if it has one. -/
def joinGroup (keyOf : Item → Option Key) (first : Value) (add : Value → Item → Value)
    (groups : OrderedMap Key Value) (item : Item) : OrderedMap Key Value :=
  match keyOf item with
  | none => groups
  | some key => groups.set key (add ((groups.get? key).getD first) item)

def groupItems (keyOf : Item → Option Key) (first : Value) (add : Value → Item → Value) (items : List Item) :
    OrderedMap Key Value :=
  items.foldl (joinGroup keyOf first add) ∅

/-- The items of one group. -/
def groupOf (keyOf : Item → Option Key) (key : Key) (items : List Item) : List Item :=
  items.filter fun item => keyOf item = some key

variable {keyOf : Item → Option Key} {first : Value} {add : Value → Item → Value} {items : List Item}

theorem get?_joinGroup (groups : OrderedMap Key Value) (item : Item) (key : Key) :
    (joinGroup keyOf first add groups item).get? key =
      if keyOf item = some key then some (add ((groups.get? key).getD first) item) else groups.get? key := by
  simp only [joinGroup]
  cases own : keyOf item with
  | none => simp
  | some other =>
      rw [OrderedMap.get?_set]
      by_cases same : key = other
      · simp [same]
      · simp [same, Ne.symm same]

theorem groupOf_cons (key : Key) (item : Item) (rest : List Item) :
    groupOf keyOf key (item :: rest) =
      if keyOf item = some key then item :: groupOf keyOf key rest else groupOf keyOf key rest := by
  by_cases own : keyOf item = some key <;> simp [groupOf, own]

/-- A group is the fold of its own items in their order. -/
theorem get?_groupItems (keyOf : Item → Option Key) (first : Value) (add : Value → Item → Value) (items : List Item)
    (key : Key) :
    (groupItems keyOf first add items).get? key =
      if groupOf keyOf key items = [] then none else some ((groupOf keyOf key items).foldl add first) := by
  have grown : ∀ groups : OrderedMap Key Value,
      (items.foldl (joinGroup keyOf first add) groups).get? key =
        if groupOf keyOf key items = [] then groups.get? key
        else some ((groupOf keyOf key items).foldl add ((groups.get? key).getD first)) := by
    induction items with
    | nil => exact fun groups => rfl
    | cons item rest ih =>
        intro groups
        rw [List.foldl_cons, ih, get?_joinGroup, groupOf_cons]
        by_cases own : keyOf item = some key
        · by_cases empty : groupOf keyOf key rest = [] <;> simp [own, empty]
        · simp only [if_neg own]
  exact (grown ∅).trans (by rw [OrderedMap.get?_empty]; rfl)

variable {key : Key} {measure : Value → Amount} {weight : Item → Amount}

theorem mem_groupItems {value : Value} (member : (key, value) ∈ (groupItems keyOf first add items).entries) :
    groupOf keyOf key items ≠ [] ∧ value = (groupOf keyOf key items).foldl add first := by
  have found := OrderedMap.get?_eq_some_iff.mpr member
  rw [get?_groupItems] at found
  split at found
  · cases found
  next some => exact ⟨some, (Option.some.inj found).symm⟩

variable [AddCommMonoid Amount]

/-- The values of a map, weighed and added. -/
def total (measure : Value → Amount) (map : OrderedMap Key Value) : Amount :=
  (map.entries.map fun entry => measure entry.2).sum

theorem total_delete (measure : Value → Amount) (map : OrderedMap Key Value) (key : Key) :
    total measure map = (map.get? key).elim 0 measure + total measure (map.delete key) := by
  cases found : map.get? key with
  | none => rw [OrderedMap.delete_of_none found, Option.elim_none, zero_add]
  | some old => exact ((OrderedMap.delete_perm found).map fun entry => measure entry.2).sum_eq

theorem total_set (measure : Value → Amount) (map : OrderedMap Key Value) (key : Key) (value : Value) :
    total measure (map.set key value) = measure value + total measure (map.delete key) :=
  ((map.set_perm key value).map fun entry : Key × Value => measure entry.2).sum_eq

/-- An item adds its weight to the total, once. -/
theorem total_joinGroup (zero : measure first = 0)
    (adds : ∀ value item, measure (add value item) = measure value + weight item) (groups : OrderedMap Key Value)
    (item : Item) :
    total measure (joinGroup keyOf first add groups item) =
      total measure groups + if (keyOf item).isSome then weight item else 0 := by
  simp only [joinGroup]
  cases keyOf item with
  | none => exact (add_zero _).symm
  | some key =>
      rw [total_set, adds, total_delete measure groups key, Option.isSome_some, if_pos rfl]
      cases groups.get? key with
      | none => rw [Option.getD_none, zero, Option.elim_none, add_right_comm]
      | some old => rw [Option.getD_some, Option.elim_some, add_right_comm]

/-- The groups together weigh what their items weigh. -/
theorem total_groupItems (zero : measure first = 0)
    (adds : ∀ value item, measure (add value item) = measure value + weight item) (items : List Item) :
    total measure (groupItems keyOf first add items) =
      (items.map fun item => if (keyOf item).isSome then weight item else 0).sum := by
  have grown : ∀ groups : OrderedMap Key Value, total measure (items.foldl (joinGroup keyOf first add) groups) =
      total measure groups + (items.map fun item => if (keyOf item).isSome then weight item else 0).sum := by
    induction items with
    | nil => exact fun groups => (add_zero _).symm
    | cons item rest ih =>
        intro groups
        rw [List.foldl_cons, ih, total_joinGroup zero adds, List.map_cons, List.sum_cons, add_assoc]
  exact (grown ∅).trans (zero_add _)

theorem sum_unkeyed (measure : Value → Amount) {entries : List (Key × Value)}
    (absent : ∀ entry ∈ entries, entry.1 ≠ key) :
    (entries.map fun entry => if entry.1 = key then measure entry.2 else 0).sum = 0 := by
  refine List.sum_eq_zero fun amount listed => ?_
  obtain ⟨entry, member, rfl⟩ := List.mem_map.mp listed
  exact if_neg (absent entry member)

theorem sum_keyed (measure : Value → Amount) (map : OrderedMap Key Value) (key : Key) :
    (map.entries.map fun entry => if entry.1 = key then measure entry.2 else 0).sum =
      (map.get? key).elim 0 measure := by
  cases found : map.get? key with
  | none => exact sum_unkeyed measure (OrderedMap.get?_eq_none_iff.mp found)
  | some value =>
      rw [((OrderedMap.delete_perm found).map _).sum_eq, List.map_cons, List.sum_cons, if_pos rfl,
        sum_unkeyed measure fun entry member => (OrderedMap.mem_delete.mp member).2, add_zero, Option.elim_some]

/-- A list of keys collects the value of each key as often as the key is listed. -/
theorem sum_lookup (measure : Value → Amount) (map : OrderedMap Key Value) (keys : List Key) :
    (keys.map fun key => (map.get? key).elim 0 measure).sum =
      (map.entries.map fun entry => keys.count entry.1 • measure entry.2).sum := by
  induction keys with
  | nil => simp
  | cons key rest ih =>
      have each : ∀ entry : Key × Value, (key :: rest).count entry.1 • measure entry.2 =
          (if entry.1 = key then measure entry.2 else 0) + rest.count entry.1 • measure entry.2 := by
        intro entry
        rw [List.count_cons, add_nsmul, add_comm]
        by_cases same : entry.1 = key
        · simp [same, one_nsmul]
        · simp [same, Ne.symm same]
      simp only [List.map_cons, List.sum_cons, ih, each, List.sum_map_add, sum_keyed]

end NimbleBrain.Library
