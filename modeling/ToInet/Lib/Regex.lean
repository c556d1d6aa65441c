import Mathlib.Data.List.Basic

-- Regular expressions as a backtracking matcher runs them: greedy, the first alternative first.
namespace ToInet.Lib

inductive Regex (α : Type) where
  | text (chars : List α)
  | rep (p : α → Bool) (least : Nat) (most : Option Nat)
  | seq (first second : Regex α)
  | alt (first second : Regex α)
  | opt (inner : Regex α)
  | group (number : Nat) (inner : Regex α)

namespace Regex

variable {α β : Type}

-- What the groups have captured, the latest one first.
abbrev Groups (α : Type) := List (Nat × List α)

-- As many as there are, and one less each time that the rest does not match.
def takeRep (p : α → Bool) (k : List α → Option β) : Nat → Option Nat → List α → Option β
  | least, _, [] => if least = 0 then k [] else none
  | least, most, c :: rest =>
      (if p c ∧ most ≠ some 0 then takeRep p k (least - 1) (most.map (· - 1)) rest else none).or
        (if least = 0 then k (c :: rest) else none)

-- k is what has to match behind the expression.
def exec [DecidableEq α] : Regex α → (List α → Groups α → Option β) → List α → Groups α → Option β
  | text chars, k, input, groups =>
      if chars.isPrefixOf input then k (input.drop chars.length) groups else none
  | rep p least most, k, input, groups => takeRep p (fun rest => k rest groups) least most input
  | seq first second, k, input, groups => first.exec (fun rest groups => second.exec k rest groups) input groups
  | alt first second, k, input, groups => (first.exec k input groups).or (second.exec k input groups)
  | opt inner, k, input, groups => (inner.exec k input groups).or (k input groups)
  | group number inner, k, input, groups =>
      inner.exec (fun rest groups => k rest ((number, input.take (input.length - rest.length)) :: groups)) input groups

def atEnd [DecidableEq α] (rest : List α) (groups : Groups α) : Option (Groups α) :=
  if rest = [] then some groups else none

-- What the groups hold when the whole input matches.
def fullMatch [DecidableEq α] (r : Regex α) (input : List α) : Option (Groups α) := r.exec atEnd input []

-- A run that the expression can read, and what its groups hold then.
def Reads : Regex α → List α → Groups α → Groups α → Prop
  | text chars, run, before, after => run = chars ∧ after = before
  | rep p least most, run, before, after =>
      (∀ c ∈ run, p c = true) ∧ least ≤ run.length ∧ (∀ bound ∈ most, run.length ≤ bound) ∧ after = before
  | seq first second, run, before, after =>
      ∃ front back between, run = front ++ back ∧ first.Reads front before between ∧ second.Reads back between after
  | alt first second, run, before, after => first.Reads run before after ∨ second.Reads run before after
  | opt inner, run, before, after => inner.Reads run before after ∨ run = [] ∧ after = before
  | group number inner, run, before, after =>
      ∃ between, inner.Reads run before between ∧ after = (number, run) :: between

-- Every character that the expression can read is in q.
def Within (q : α → Prop) : Regex α → Prop
  | text chars => ∀ c ∈ chars, q c
  | rep p _ _ => ∀ c, p c = true → q c
  | seq first second => first.Within q ∧ second.Within q
  | alt first second => first.Within q ∧ second.Within q
  | opt inner => inner.Within q
  | group _ inner => inner.Within q

-- The length of the shortest run.
def shortest : Regex α → Nat
  | text chars => chars.length
  | rep _ least _ => least
  | seq first second => first.shortest + second.shortest
  | alt first second => min first.shortest second.shortest
  | opt _ => 0
  | group _ inner => inner.shortest

def Groupless : Regex α → Prop
  | text _ | rep _ _ _ => True
  | seq first second => first.Groupless ∧ second.Groupless
  | alt first second => first.Groupless ∧ second.Groupless
  | opt inner => inner.Groupless
  | group _ _ => False

section

variable {r : Regex α} {q : α → Prop} {run : List α} {before after : Groups α}

theorem Reads.forall_mem (hr : r.Within q) (h : r.Reads run before after) : ∀ c ∈ run, q c := by
  induction r generalizing run before after with
  | text chars =>
      obtain ⟨rfl, _⟩ := h
      exact hr
  | rep p least most => exact fun c hc => hr c (h.1 c hc)
  | seq first second ihfirst ihsecond =>
      obtain ⟨front, back, between, rfl, hfront, hback⟩ := h
      exact List.forall_mem_append.mpr ⟨ihfirst hr.1 hfront, ihsecond hr.2 hback⟩
  | alt first second ihfirst ihsecond => exact h.elim (ihfirst hr.1) (ihsecond hr.2)
  | opt inner ih =>
      obtain h | ⟨rfl, _⟩ := h
      · exact ih hr h
      · exact nofun
  | group number inner ih =>
      obtain ⟨between, h, _⟩ := h
      exact ih hr h

theorem Reads.shortest_le (h : r.Reads run before after) : r.shortest ≤ run.length := by
  induction r generalizing run before after with
  | text chars => exact Nat.le_of_eq (congrArg List.length h.1.symm)
  | rep p least most => exact h.2.1
  | seq first second ihfirst ihsecond =>
      obtain ⟨front, back, between, rfl, hfront, hback⟩ := h
      rw [List.length_append]
      exact Nat.add_le_add (ihfirst hfront) (ihsecond hback)
  | alt first second ihfirst ihsecond =>
      obtain h | h := h
      · exact Nat.le_trans (Nat.min_le_left _ _) (ihfirst h)
      · exact Nat.le_trans (Nat.min_le_right _ _) (ihsecond h)
  | opt inner ih => exact Nat.zero_le _
  | group number inner ih =>
      obtain ⟨between, h, _⟩ := h
      exact ih h

theorem Reads.groups_eq (hr : r.Groupless) (h : r.Reads run before after) : after = before := by
  induction r generalizing run before after with
  | text chars => exact h.2
  | rep p least most => exact h.2.2.2
  | seq first second ihfirst ihsecond =>
      obtain ⟨front, back, between, rfl, hfront, hback⟩ := h
      exact (ihsecond hr.2 hback).trans (ihfirst hr.1 hfront)
  | alt first second ihfirst ihsecond => exact h.elim (ihfirst hr.1) (ihsecond hr.2)
  | opt inner ih => exact h.elim (ih hr) And.right
  | group number inner ih => exact hr.elim

end

variable {p : α → Bool} {k : List α → Option β} {least : Nat} {most : Option Nat} {run input : List α} {out : β}

theorem takeRep_eq_some (h : takeRep p k least most input = some out) :
    ∃ run rest, input = run ++ rest ∧ (∀ c ∈ run, p c = true) ∧ least ≤ run.length ∧
      (∀ bound ∈ most, run.length ≤ bound) ∧ k rest = some out := by
  have hstop : ∀ {least : Nat} {most : Option Nat} {input : List α}, (if least = 0 then k input else none) = some out →
      ∃ run rest, input = run ++ rest ∧ (∀ c ∈ run, p c = true) ∧ least ≤ run.length ∧
        (∀ bound ∈ most, run.length ≤ bound) ∧ k rest = some out := by
    intro least most input h
    split at h
    · rename_i hleast
      exact ⟨[], input, rfl, nofun, Nat.le_of_eq hleast, fun _ _ => Nat.zero_le _, h⟩
    · cases h
  induction input generalizing least most with
  | nil => exact hstop h
  | cons c input ih =>
      rw [takeRep, Option.or_eq_some_iff] at h
      obtain hmore | ⟨_, hless⟩ := h
      · split at hmore
        · rename_i hc
          obtain ⟨run, rest, rfl, hrun, hleast, hmost, hk⟩ := ih hmore
          refine ⟨c :: run, rest, rfl, List.forall_mem_cons.mpr ⟨hc.1, hrun⟩, ?_, fun bound hbound => ?_, hk⟩
          · rw [List.length_cons]
            omega
          · obtain rfl := Option.mem_def.mp hbound
            have hless := hmost (bound - 1) rfl
            have hne : bound ≠ 0 := fun hzero => hc.2 (by rw [hzero])
            rw [List.length_cons]
            omega
        · cases hmore
      · exact hstop hless

-- A number of characters that is given is read in one way.
theorem takeRep_exact (k : List α → Option β) (h : ∀ c ∈ run, p c = true) (rest : List α) :
    takeRep p k run.length (some run.length) (run ++ rest) = k rest := by
  induction run with
  | nil => cases rest <;> simp [takeRep]
  | cons c run ih =>
      have hmore := ih fun x hx => h x (List.mem_cons_of_mem c hx)
      rw [List.cons_append, takeRep, List.length_cons, if_pos ⟨h c List.mem_cons_self, by simp⟩,
        if_neg (Nat.succ_ne_zero _), Option.or_none]
      exact hmore

-- Up to the end, when nothing stands in the way.
theorem takeRep_all (h : ∀ c ∈ input, p c = true) (hk : k [] = some out) : takeRep p k 0 none input = some out := by
  induction input with
  | nil => exact hk
  | cons c input ih =>
      have hmore : takeRep p k (0 - 1) (none.map (· - 1)) input = some out :=
        ih fun x hx => h x (List.mem_cons_of_mem c hx)
      rw [takeRep, if_pos ⟨h c List.mem_cons_self, by simp⟩, hmore, Option.some_or]

variable [DecidableEq α]

theorem atEnd_eq_some {rest : List α} {groups after : Groups α} (h : atEnd rest groups = some after) :
    rest = [] ∧ after = groups := by
  unfold atEnd at h
  split at h
  · rename_i hrest
    exact ⟨hrest, (Option.some.inj h).symm⟩
  · cases h

theorem exec_seq (first second : Regex α) (k : List α → Groups α → Option β) (input : List α) (groups : Groups α) :
    (seq first second).exec k input groups =
      first.exec (fun rest groups => second.exec k rest groups) input groups := rfl

-- What has been matched was read, and the rest of the input matched behind it.
theorem exec_eq_some {r : Regex α} {k : List α → Groups α → Option β} {groups : Groups α}
    (h : r.exec k input groups = some out) :
    ∃ run rest after, input = run ++ rest ∧ r.Reads run groups after ∧ k rest after = some out := by
  induction r generalizing k input groups with
  | text chars =>
      rw [exec] at h
      split at h
      · rename_i hchars
        obtain ⟨rest, rfl⟩ := List.isPrefixOf_iff_prefix.mp hchars
        rw [List.drop_left] at h
        exact ⟨chars, rest, groups, rfl, ⟨rfl, rfl⟩, h⟩
      · cases h
  | rep p least most =>
      obtain ⟨run, rest, rfl, hrun, hleast, hmost, hk⟩ := takeRep_eq_some h
      exact ⟨run, rest, groups, rfl, ⟨hrun, hleast, hmost, rfl⟩, hk⟩
  | seq first second ihfirst ihsecond =>
      obtain ⟨front, rest, between, rfl, hfront, h⟩ := ihfirst h
      obtain ⟨back, rest, after, rfl, hback, hk⟩ := ihsecond h
      exact ⟨front ++ back, rest, after, (List.append_assoc _ _ _).symm, ⟨front, back, between, rfl, hfront, hback⟩, hk⟩
  | alt first second ihfirst ihsecond =>
      obtain h | ⟨_, h⟩ := Option.or_eq_some_iff.mp h
      · obtain ⟨run, rest, after, rfl, hrun, hk⟩ := ihfirst h
        exact ⟨run, rest, after, rfl, .inl hrun, hk⟩
      · obtain ⟨run, rest, after, rfl, hrun, hk⟩ := ihsecond h
        exact ⟨run, rest, after, rfl, .inr hrun, hk⟩
  | opt inner ih =>
      obtain h | ⟨_, h⟩ := Option.or_eq_some_iff.mp h
      · obtain ⟨run, rest, after, rfl, hrun, hk⟩ := ih h
        exact ⟨run, rest, after, rfl, .inl hrun, hk⟩
      · exact ⟨[], input, groups, rfl, .inr ⟨rfl, rfl⟩, h⟩
  | group number inner ih =>
      obtain ⟨run, rest, between, rfl, hrun, hk⟩ := ih h
      have htake : (run ++ rest).take ((run ++ rest).length - rest.length) = run := by
        rw [List.length_append, Nat.add_sub_cancel, List.take_left]
      rw [htake] at hk
      exact ⟨run, rest, (number, run) :: between, rfl, ⟨between, hrun, rfl⟩, hk⟩

end Regex

end ToInet.Lib
