import Mathlib.Logic.Function.Basic
import Mathlib.Tactic.SplitIfs

-- A set of slots, kept as the front of a permutation of all slots.
namespace ToInet.Lib

open Function

-- links is the permutation, and index says where a slot of the set stands in it.
structure SparseSet (max count : Nat) (links index : Nat → Nat) : Prop where
  count_le : count ≤ max
  links_lt : ∀ i < max, links i < max
  inj : ∀ i < max, ∀ j < max, links i = links j → i = j
  index_links : ∀ i < count, index (links i) = i

def Used (count : Nat) (links : Nat → Nat) (v : Nat) : Prop := ∃ i < count, links i = v

namespace SparseSet

variable {max count : Nat} {links index : Nat → Nat}

theorem index_lt (h : SparseSet max count links index) {v : Nat} (hv : Used count links v) : index v < count := by
  obtain ⟨i, hi, rfl⟩ := hv
  rw [h.index_links i hi]
  exact hi

theorem links_index (h : SparseSet max count links index) {v : Nat} (hv : Used count links v) : links (index v) = v :=
    by
  obtain ⟨i, hi, rfl⟩ := hv
  rw [h.index_links i hi]

theorem not_used_next (h : SparseSet max count links index) (hroom : count < max) : ¬Used count links (links count) :=
    by
  rintro ⟨i, hi, heq⟩
  have hsame := h.inj i (by omega) count hroom heq
  omega

theorem used_push {v : Nat} : Used (count + 1) links v ↔ v = links count ∨ Used count links v := by
  constructor
  · rintro ⟨i, hi, rfl⟩
    by_cases hlast : i = count
    · exact .inl (by rw [hlast])
    · exact .inr ⟨i, by omega, rfl⟩
  · rintro (rfl | ⟨i, hi, rfl⟩)
    · exact ⟨count, by omega, rfl⟩
    · exact ⟨i, by omega, rfl⟩

theorem push (h : SparseSet max count links index) (hroom : count < max) :
    SparseSet max (count + 1) links (update index (links count) count) := by
  refine ⟨hroom, h.links_lt, h.inj, fun i hi => ?_⟩
  by_cases hlast : i = count
  · rw [hlast, update_self]
  · rw [update_of_ne fun heq => hlast (h.inj i (by omega) count hroom heq)]
    exact h.index_links i (by omega)

-- The index of a slot outside the set is free.
theorem congr (h : SparseSet max count links index) {index' : Nat → Nat}
    (hindex : ∀ v, Used count links v → index' v = index v) :
    SparseSet max count links index' :=
  ⟨h.count_le, h.links_lt, h.inj, fun i hi => (hindex _ ⟨i, hi, rfl⟩).trans (h.index_links i hi)⟩

section remove

variable {v : Nat}

-- The last slot of the set takes the place of the one that leaves.
theorem remove (h : SparseSet max (count + 1) links index) (hv : Used (count + 1) links v) :
    SparseSet max count (update (update links (index v) (links count)) count v)
      (update index (links count) (index v)) := by
  have hlt := h.index_lt hv
  have hlinks := h.links_index hv
  have hcount := h.count_le
  have hat (i : Nat) : update (update links (index v) (links count)) count v i =
      links (if i = count then index v else if i = index v then count else i) := by
    simp only [update_apply]
    split_ifs
    · exact hlinks.symm
    · rfl
    · rfl
  refine ⟨by omega, fun i hi => ?_, fun i hi j hj heq => ?_, fun i hi => ?_⟩
  · rw [hat]
    apply h.links_lt
    split_ifs <;> omega
  · rw [hat, hat] at heq
    have hsame := h.inj _ (by split_ifs <;> omega) _ (by split_ifs <;> omega) heq
    split_ifs at hsame <;> omega
  · rw [hat, if_neg (by omega)]
    by_cases hi' : i = index v
    · rw [if_pos hi', update_self, hi']
    · rw [if_neg hi', update_of_ne fun heq => by have hsame := h.inj i (by omega) count (by omega) heq; omega]
      exact h.index_links i (by omega)

theorem used_remove (h : SparseSet max (count + 1) links index) (hv : Used (count + 1) links v) {w : Nat} :
    Used count (update (update links (index v) (links count)) count v) w ↔ Used (count + 1) links w ∧ w ≠ v := by
  have hlt := h.index_lt hv
  have hlinks := h.links_index hv
  have hcount := h.count_le
  constructor
  · rintro ⟨i, hi, rfl⟩
    rw [update_of_ne (by omega)]
    by_cases hi' : i = index v
    · rw [hi', update_self]
      refine ⟨⟨count, by omega, rfl⟩, fun heq => ?_⟩
      have hsame := h.inj count (by omega) (index v) (by omega) (heq.trans hlinks.symm)
      omega
    · rw [update_of_ne hi']
      refine ⟨⟨i, by omega, rfl⟩, fun heq => hi' ?_⟩
      exact h.inj i (by omega) (index v) (by omega) (heq.trans hlinks.symm)
  · rintro ⟨⟨i, hi, rfl⟩, hne⟩
    by_cases hlast : i = count
    · refine ⟨index v, ?_, ?_⟩
      · have hne' : index v ≠ count := by
          rintro heq
          rw [heq, ← hlast] at hlinks
          exact hne hlinks
        omega
      · rw [update_of_ne, update_self, hlast]
        rintro heq
        rw [heq, ← hlast] at hlinks
        exact hne hlinks
    · refine ⟨i, by omega, ?_⟩
      rw [update_of_ne hlast, update_of_ne]
      rintro rfl
      exact hne hlinks

end remove

end SparseSet

end ToInet.Lib
