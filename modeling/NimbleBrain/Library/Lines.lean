import Mathlib.Data.List.Basic

/- A list is split at a mark. The parts of two lists that are joined meet in one part. -/

namespace NimbleBrain.Library

/-- A mark in a list has a last place. -/
theorem exists_last_mark {Item : Type} {mark : Item} {items : List Item} (marked : mark ∈ items) :
    ∃ front last, items = front ++ mark :: last ∧ mark ∉ last := by
  obtain ⟨before, after, same, free⟩ := List.eq_append_cons_of_mem (List.mem_reverse.mpr marked)
  refine ⟨after.reverse, before.reverse, ?_, fun member => free (List.mem_reverse.mp member)⟩
  rw [← List.reverse_reverse items, same]
  simp

variable {Item : Type} [DecidableEq Item] {mark : Item}

theorem exists_splitOn_cons (mark : Item) (items : List Item) :
    ∃ first parts, items.splitOn mark = first :: parts :=
  List.exists_cons_of_ne_nil (List.splitOn_ne_nil mark items)

/-- No part holds the mark. -/
theorem not_mem_of_mem_splitOn {items part : List Item} (member : part ∈ items.splitOn mark) : mark ∉ part := by
  induction items generalizing part with
  | nil =>
      obtain rfl := List.mem_singleton.mp member
      exact List.not_mem_nil
  | cons item items ih =>
      obtain ⟨first, parts, split⟩ := exists_splitOn_cons mark items
      rw [List.splitOn_cons_eq_if_modifyHead] at member
      split at member
      · rcases List.mem_cons.mp member with rfl | member
        · exact List.not_mem_nil
        · exact ih member
      · next other =>
          rw [split, List.modifyHead_cons] at member
          rcases List.mem_cons.mp member with rfl | member
          · have free : mark ∉ first := ih (split ▸ List.mem_cons_self)
            simpa [free] using fun same => other (by simp [same])
          · exact ih (split ▸ List.mem_cons_of_mem first member)

/-- The last part comes behind the last mark, and the others end at it. -/
theorem exists_append_of_splitOn (mark : Item) (items : List Item) :
    ∃ front last parts, items = front ++ last ∧ mark ∉ last ∧ items.splitOn mark = parts ++ [last] ∧
      front.splitOn mark = parts ++ [[]] := by
  by_cases marked : mark ∈ items
  · obtain ⟨front, last, rfl, free⟩ := exists_last_mark marked
    refine ⟨front ++ [mark], last, front.splitOn mark, by rw [List.append_assoc]; rfl, free, ?_, ?_⟩
    · rw [List.splitOn_append_cons_self, List.splitOn_eq_singleton free]
    · rw [List.splitOn_append_cons_self, List.splitOn_nil]
  · exact ⟨[], items, [], rfl, marked, List.splitOn_eq_singleton marked, List.splitOn_nil mark⟩

variable {first next second : List Item} {others : List (List Item)}

theorem splitOn_append_of_not_mem (free : mark ∉ first) (split : second.splitOn mark = next :: others) :
    (first ++ second).splitOn mark = (first ++ next) :: others := by
  by_cases marked : mark ∈ second
  · obtain ⟨front, rest, rfl, free'⟩ := List.eq_append_cons_of_mem marked
    rw [List.splitOn_append_cons_self_of_not_mem free'] at split
    obtain ⟨rfl, rfl⟩ := List.cons_eq_cons.mp split
    rw [← List.append_assoc, List.splitOn_append_cons_self_of_not_mem]
    exact fun member => (List.mem_append.mp member).elim free free'
  · rw [List.splitOn_eq_singleton marked] at split
    obtain ⟨rfl, rfl⟩ := List.cons_eq_cons.mp split
    exact List.splitOn_eq_singleton fun member => (List.mem_append.mp member).elim free marked

/-- Two lists meet in the last part of the one and the first part of the other. -/
theorem splitOn_append {last : List Item} {parts : List (List Item)} (split : first.splitOn mark = parts ++ [last])
    (split' : second.splitOn mark = next :: others) :
    (first ++ second).splitOn mark = parts ++ (last ++ next) :: others := by
  by_cases marked : mark ∈ first
  · obtain ⟨front, last', rfl, free⟩ := exists_last_mark marked
    rw [List.splitOn_append_cons_self, List.splitOn_eq_singleton free] at split
    obtain ⟨rfl, tail⟩ := List.append_inj' split rfl
    obtain rfl := List.singleton_inj.mp tail
    rw [List.append_assoc, List.cons_append, List.splitOn_append_cons_self, splitOn_append_of_not_mem free split']
  · rw [List.splitOn_eq_singleton marked] at split
    obtain ⟨rfl, tail⟩ : [] = parts ∧ [first] = [last] := List.append_inj' split rfl
    obtain rfl := List.singleton_inj.mp tail
    exact splitOn_append_of_not_mem marked split'

end NimbleBrain.Library
