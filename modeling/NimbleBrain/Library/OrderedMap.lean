import Mathlib.Data.List.Nodup
import Mathlib.Data.List.Perm.Basic

/- A map keeps its entries in the order in which their keys came. A key that comes again keeps its place. -/

namespace NimbleBrain.Library

/-- No two entries share a key. -/
@[ext] structure OrderedMap (Key Value : Type) where
  entries : List (Key × Value)
  distinct : (entries.map Prod.fst).Nodup
  deriving DecidableEq

namespace OrderedMap

variable {Key Value : Type} [DecidableEq Key]

/-- The value of the key is replaced where it stands, or added at the end. -/
def setEntry (key : Key) (value : Value) : List (Key × Value) → List (Key × Value)
  | [] => [(key, value)]
  | entry :: rest => if entry.1 = key then (key, value) :: rest else entry :: setEntry key value rest

theorem setEntry_keys (key : Key) (value : Value) (entries : List (Key × Value)) :
    (setEntry key value entries).map Prod.fst =
      if key ∈ entries.map Prod.fst then entries.map Prod.fst else entries.map Prod.fst ++ [key] := by
  induction entries with
  | nil => rfl
  | cons entry rest ih =>
      by_cases same : entry.1 = key
      · simp [setEntry, same]
      · have other : ¬ key = entry.1 := fun equal => same equal.symm
        simp only [setEntry, if_neg same, List.map_cons, List.mem_cons, other, false_or, ih]
        split <;> rfl

variable {entries : List (Key × Value)} {key : Key} {value : Value} {entry : Key × Value}

/-- A new key comes at the end. -/
theorem setEntry_fresh (fresh : key ∉ entries.map Prod.fst) (value : Value) :
    setEntry key value entries = entries ++ [(key, value)] := by
  induction entries with
  | nil => rfl
  | cons entry rest ih =>
      simp only [List.map_cons, List.mem_cons, not_or] at fresh
      rw [setEntry, if_neg (Ne.symm fresh.1), ih fresh.2, List.cons_append]

/-- A key keeps its place. -/
theorem setEntry_of_getElem? {old : Value} {place : Nat} (distinct : (entries.map Prod.fst).Nodup)
    (found : entries[place]? = some (key, old)) (value : Value) :
    setEntry key value entries = entries.set place (key, value) := by
  induction entries generalizing place with
  | nil => exact nomatch found
  | cons entry rest ih =>
      obtain ⟨fresh, distinct⟩ := List.nodup_cons.mp distinct
      cases place with
      | zero =>
          obtain rfl : entry = (key, old) := Option.some.inj found
          rw [setEntry, if_pos rfl, List.set_cons_zero]
      | succ place =>
          have other : entry.1 ≠ key := by
            rintro rfl
            exact fresh (List.mem_map.mpr ⟨_, List.mem_of_getElem? found, rfl⟩)
          rw [setEntry, if_neg other, ih distinct found, List.set_cons_succ]

theorem setEntry_distinct (key : Key) (value : Value) (distinct : (entries.map Prod.fst).Nodup) :
    ((setEntry key value entries).map Prod.fst).Nodup := by
  rw [setEntry_keys]
  split
  · exact distinct
  · next fresh =>
      rw [List.nodup_append]
      refine ⟨distinct, List.nodup_singleton key, ?_⟩
      intro one member other last
      rw [List.mem_singleton.mp last]
      exact fun same => fresh (same ▸ member)

def empty : OrderedMap Key Value := ⟨[], List.nodup_nil⟩

instance : EmptyCollection (OrderedMap Key Value) := ⟨empty⟩

variable (map : OrderedMap Key Value)

def get? (key : Key) : Option Value := (map.entries.find? fun entry => entry.1 = key).map Prod.snd

def set (key : Key) (value : Value) : OrderedMap Key Value where
  entries := setEntry key value map.entries
  distinct := setEntry_distinct key value map.distinct

def delete (key : Key) : OrderedMap Key Value where
  entries := map.entries.filter fun entry => entry.1 ≠ key
  distinct := map.distinct.sublist (List.filter_sublist.map Prod.fst)

def values : List Value := map.entries.map Prod.snd

def size : Nat := map.entries.length

omit [DecidableEq Key] in
@[simp] theorem entries_empty : (∅ : OrderedMap Key Value).entries = [] := rfl

@[simp] theorem get?_empty (key : Key) : (∅ : OrderedMap Key Value).get? key = none := rfl

variable {map}

theorem get?_eq_some_iff :
    map.get? key = some value ↔ (key, value) ∈ map.entries := by
  constructor
  · intro found
    obtain ⟨entry, first, rfl⟩ := Option.map_eq_some_iff.mp found
    have named : entry.1 = key := by simpa using List.find?_some first
    exact named ▸ List.mem_of_find?_eq_some first
  · intro member
    cases first : map.entries.find? fun entry => entry.1 = key with
    | none =>
        have absent := List.find?_eq_none.mp first (key, value) member
        simp at absent
    | some entry =>
        have named : entry.1 = key := by simpa using List.find?_some first
        have same := List.inj_on_of_nodup_map map.distinct (List.mem_of_find?_eq_some first) member named
        simp [get?, first, same]

theorem get?_eq_none_iff : map.get? key = none ↔ ∀ entry ∈ map.entries, entry.1 ≠ key := by
  simp [get?, List.find?_eq_none]

theorem isSome_get?_iff : (map.get? key).isSome ↔ key ∈ map.entries.map Prod.fst := by
  rw [Option.isSome_iff_exists, List.mem_map]
  constructor
  · rintro ⟨value, found⟩
    exact ⟨_, get?_eq_some_iff.mp found, rfl⟩
  · rintro ⟨entry, member, rfl⟩
    exact ⟨entry.2, get?_eq_some_iff.mpr member⟩

theorem filter_absent (absent : key ∉ entries.map Prod.fst) :
    entries.filter (fun entry => entry.1 ≠ key) = entries := by
  apply List.filter_eq_self.mpr
  intro entry member
  have different : entry.1 ≠ key := fun same => absent (same ▸ List.mem_map_of_mem member)
  simpa using different

theorem delete_entries_of_none (absent : map.get? key = none) :
    (map.delete key).entries = map.entries := by
  apply filter_absent
  intro listed
  obtain ⟨entry, member, named⟩ := List.mem_map.mp listed
  exact get?_eq_none_iff.mp absent entry member named

theorem delete_of_none (absent : map.get? key = none) : map.delete key = map :=
  OrderedMap.ext (delete_entries_of_none absent)

theorem setEntry_perm (key : Key) (value : Value) (distinct : (entries.map Prod.fst).Nodup) :
    (setEntry key value entries).Perm ((key, value) :: entries.filter fun entry => entry.1 ≠ key) := by
  induction entries with
  | nil => exact .refl _
  | cons entry rest ih =>
      obtain ⟨fresh, distinct⟩ := List.nodup_cons.mp distinct
      by_cases same : entry.1 = key
      · rw [setEntry, if_pos same, List.filter_cons, if_neg (by simp [same]), filter_absent (same ▸ fresh)]
      · rw [setEntry, if_neg same, List.filter_cons, if_pos (by simp [same])]
        exact ((ih distinct).cons entry).trans (.swap ..)

/-- A set entry replaces the one of its key. -/
theorem set_perm (map : OrderedMap Key Value) (key : Key) (value : Value) :
    (map.set key value).entries.Perm ((key, value) :: (map.delete key).entries) :=
  setEntry_perm key value map.distinct

theorem entry_perm (distinct : (entries.map Prod.fst).Nodup) (member : (key, value) ∈ entries) :
    entries.Perm ((key, value) :: entries.filter fun entry => entry.1 ≠ key) := by
  induction entries with
  | nil => cases member
  | cons entry rest ih =>
      obtain ⟨fresh, distinct⟩ := List.nodup_cons.mp distinct
      rcases List.mem_cons.mp member with rfl | later
      · rw [List.filter_cons, if_neg (by simp), filter_absent fresh]
      · have different : entry.1 ≠ key := fun equal =>
          fresh (equal ▸ List.mem_map_of_mem (f := Prod.fst) later)
        rw [List.filter_cons, if_pos (by simp [different])]
        exact ((ih distinct later).cons entry).trans (.swap ..)

/-- A present entry can be taken out. -/
theorem delete_perm (found : map.get? key = some value) :
    map.entries.Perm ((key, value) :: (map.delete key).entries) :=
  entry_perm map.distinct (get?_eq_some_iff.mp found)

theorem mem_set :
    entry ∈ (map.set key value).entries ↔ entry = (key, value) ∨ entry ∈ map.entries ∧ entry.1 ≠ key := by
  rw [(set_perm map key value).mem_iff, List.mem_cons, delete, List.mem_filter]
  simp

theorem mem_delete :
    entry ∈ (map.delete key).entries ↔ entry ∈ map.entries ∧ entry.1 ≠ key := by
  simp [delete, List.mem_filter]

theorem get?_set_self (key : Key) (value : Value) : (map.set key value).get? key = some value :=
  get?_eq_some_iff.mpr (mem_set.mpr (.inl rfl))

/-- A value that is there is set again without a change. -/
theorem set_get? (found : map.get? key = some value) : map.set key value = map := by
  obtain ⟨place, listed⟩ := List.mem_iff_getElem?.mp (get?_eq_some_iff.mp found)
  obtain ⟨bound, same⟩ := List.getElem?_eq_some_iff.mp listed
  have kept := setEntry_of_getElem? map.distinct listed value
  rw [← same, List.set_getElem_self] at kept
  exact OrderedMap.ext kept

theorem get?_set (key other : Key) (value : Value) :
    (map.set key value).get? other = if other = key then some value else map.get? other := by
  split
  · next same => rw [same, get?_set_self]
  · next different =>
      apply Option.ext
      intro found
      simp [get?_eq_some_iff, mem_set, different]

theorem get?_delete (key other : Key) :
    (map.delete key).get? other = if other = key then none else map.get? other := by
  split
  · next same =>
      rw [same, get?_eq_none_iff]
      exact fun entry member => (mem_delete.mp member).2
  · next different =>
      apply Option.ext
      intro found
      simp [get?_eq_some_iff, mem_delete, different]

/-- Each value is replaced or left out. -/
def filterMap {Other : Type} (f : Key → Value → Option Other) (map : OrderedMap Key Value) :
    OrderedMap Key Other where
  entries := map.entries.filterMap fun entry => (f entry.1 entry.2).map (Prod.mk entry.1)
  distinct := by
    refine map.distinct.sublist ?_
    rw [List.map_filterMap, ← List.filterMap_eq_map]
    induction map.entries with
    | nil => exact .refl []
    | cons entry rest ih =>
        cases kept : f entry.1 entry.2 with
        | none => simpa [kept] using ih.cons entry.1
        | some other => simpa [kept] using ih.cons_cons entry.1

theorem get?_filterMap {Other : Type} (f : Key → Value → Option Other) (key : Key) :
    (map.filterMap f).get? key = (map.get? key).bind (f key) := by
  apply Option.ext
  intro other
  rw [get?_eq_some_iff, Option.bind_eq_some_iff]
  constructor
  · intro member
    obtain ⟨entry, listed, made⟩ := List.mem_filterMap.mp member
    obtain ⟨value, kept, same⟩ := Option.map_eq_some_iff.mp made
    obtain ⟨rfl, rfl⟩ := Prod.mk.inj same
    exact ⟨entry.2, get?_eq_some_iff.mpr listed, kept⟩
  · rintro ⟨value, found, kept⟩
    exact List.mem_filterMap.mpr ⟨(key, value), get?_eq_some_iff.mp found, by rw [kept]; rfl⟩

/-- A map without entries finds nothing. -/
theorem get?_of_size_zero (empty : map.size = 0) (key : Key) : map.get? key = none := by
  rw [get?, List.eq_nil_of_length_eq_zero empty]
  rfl

theorem values_set (map : OrderedMap Key Value) (key : Key) (value : Value) :
    (map.set key value).values.Perm (value :: (map.delete key).values) :=
  (set_perm map key value).map Prod.snd

/-- The entry of a key stands apart from the others, if there is one. -/
theorem values_delete (map : OrderedMap Key Value) (key : Key) :
    map.values.Perm ((map.get? key).toList ++ (map.delete key).values) := by
  cases found : map.get? key with
  | none => rw [values, values, delete_entries_of_none found, Option.toList_none, List.nil_append]
  | some value => exact (delete_perm found).map Prod.snd

theorem size_delete_le (map : OrderedMap Key Value) (key : Key) : (map.delete key).size ≤ map.size :=
  List.length_filter_le ..

theorem size_delete (found : map.get? key = some value) :
    map.size = (map.delete key).size + 1 :=
  (delete_perm found).length_eq

theorem size_set_le (map : OrderedMap Key Value) (key : Key) (value : Value) :
    (map.set key value).size ≤ map.size + 1 := by
  have length := (set_perm map key value).length_eq
  have less := map.size_delete_le key
  simp only [List.length_cons] at length
  simp only [size] at less ⊢
  omega

omit [DecidableEq Key] in
theorem mem_values : value ∈ map.values ↔ ∃ key, (key, value) ∈ map.entries := by
  simp [values]

end OrderedMap

end NimbleBrain.Library
