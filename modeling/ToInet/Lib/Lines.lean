import Mathlib.Data.List.TakeWhile

-- The lines of a text, which CRLF, LF and CR end.
namespace ToInet.Lib

variable {α β : Type}

-- A list is taken apart at what ends its runs.
theorem separator_induction (p : α → Prop) [DecidablePred p] {motive : List α → Prop}
    (run : ∀ run, (∀ c ∈ run, ¬p c) → motive run)
    (step : ∀ run c rest, (∀ x ∈ run, ¬p x) → p c → motive rest → motive (run ++ c :: rest)) (text : List α) :
    motive text := by
  have hfrom : ∀ front, (∀ c ∈ front, ¬p c) → motive (front ++ text) := by
    induction text with
    | nil =>
        intro front hfront
        rw [List.append_nil]
        exact run front hfront
    | cons c text ih =>
        intro front hfront
        by_cases hc : p c
        · exact step front c text hfront hc (ih [] nofun)
        · have hmore : ∀ x ∈ front ++ [c], ¬p x := by
            intro x hx
            obtain hx | hx := List.mem_append.mp hx
            · exact hfront x hx
            · rw [List.mem_singleton.mp hx]
              exact hc
          have hnext := ih (front ++ [c]) hmore
          rwa [List.append_assoc, List.singleton_append] at hnext
  exact hfrom [] nofun

section

variable [DecidableEq α] {sep : α} {front : List α}

theorem all_ne (h : sep ∉ front) : ∀ c ∈ front, decide (c ≠ sep) = true := by
  intro c hc
  have hne : c ≠ sep := fun hsame => h (hsame ▸ hc)
  simpa using hne

theorem takeWhile_ne_self (h : sep ∉ front) : front.takeWhile (· ≠ sep) = front :=
  List.takeWhile_eq_self_iff.mpr (all_ne h)

theorem takeWhile_ne (h : sep ∉ front) {back : List α} : (front ++ sep :: back).takeWhile (· ≠ sep) = front := by
  rw [List.takeWhile_append_of_pos (all_ne h)]
  simp

theorem dropWhile_ne (h : sep ∉ front) {back : List α} :
    (front ++ sep :: back).dropWhile (· ≠ sep) = sep :: back := by
  rw [List.dropWhile_append_of_pos (all_ne h)]
  simp

end

-- The lines that have been ended, the one that has not, and whether a LF that comes next belongs to
-- the break that has been seen.
structure Lines (α : Type) where
  ended : List (List α)
  line : List α
  afterCr : Bool

namespace Lines

def start (α : Type) : Lines α := { ended := [], line := [], afterCr := false }

def map (f : List α → List β) (s : Lines α) : Lines β :=
  { ended := s.ended.map f, line := f s.line, afterCr := s.afterCr }

variable [DecidableEq α] (cr lf : α)

def push (s : Lines α) (c : α) : Lines α :=
  if c = lf then
    if s.afterCr then { s with afterCr := false } else { ended := s.ended ++ [s.line], line := [], afterCr := false }
  else if c = cr then { ended := s.ended ++ [s.line], line := [], afterCr := true }
  else { s with line := s.line ++ [c], afterCr := false }

def read (text : List α) : Lines α := text.foldl (push cr lf) (start α)

def IsBreak (c : α) : Prop := c = lf ∨ c = cr

instance : DecidablePred (IsBreak cr lf) := fun c => inferInstanceAs (Decidable (c = lf ∨ c = cr))

end Lines

def lines [DecidableEq α] (cr lf : α) (text : List α) : List (List α) :=
  (Lines.read cr lf text).ended ++ [(Lines.read cr lf text).line]

namespace Lines

variable [DecidableEq α] {cr lf : α}

theorem read_append (text more : List α) : read cr lf (text ++ more) = more.foldl (push cr lf) (read cr lf text) := by
  rw [read, List.foldl_append, read]

theorem push_text {c : α} (h : ¬IsBreak cr lf c) (s : Lines α) :
    push cr lf s c = { s with line := s.line ++ [c], afterCr := false } := by
  unfold IsBreak at h
  rw [push, if_neg fun hlf => h (.inl hlf), if_neg fun hcr => h (.inr hcr)]

theorem foldl_push_text {run : List α} (h : ∀ c ∈ run, ¬IsBreak cr lf c) (s : Lines α) :
    run.foldl (push cr lf) s = { s with line := s.line ++ run, afterCr := s.afterCr && run.isEmpty } := by
  induction run generalizing s with
  | nil => simp
  | cons c run ih =>
      rw [List.foldl_cons, push_text (h c List.mem_cons_self), ih fun x hx => h x (List.mem_cons_of_mem _ hx)]
      simp

theorem push_break {c : α} (h : IsBreak cr lf c) {s : Lines α} (hafter : s.afterCr = false) :
    push cr lf s c = { ended := s.ended ++ [s.line], line := [], afterCr := !decide (c = lf) } := by
  unfold push
  by_cases hlf : c = lf
  · rw [if_pos hlf, hafter]
    simp [hlf]
  · rw [if_neg hlf, if_pos (h.resolve_left hlf)]
    simp [hlf]

-- Behind a CR a new line begins.
theorem foldl_push_afterCr (text : List α) {s : Lines α} (hs : s.afterCr = true → s.line = []) :
    (text.foldl (push cr lf) s).afterCr = true → (text.foldl (push cr lf) s).line = [] := by
  induction text generalizing s with
  | nil => exact hs
  | cons c text ih =>
      refine ih ?_
      unfold push
      split
      · split
        · exact nofun
        · exact nofun
      · split
        · exact fun _ => rfl
        · exact nofun

theorem read_afterCr (text : List α) (h : (read cr lf text).line ≠ []) : (read cr lf text).afterCr = false := by
  rw [← Bool.not_eq_true]
  exact fun hafter => h (foldl_push_afterCr text nofun hafter)

variable (cr lf) in
-- Lines that have been ended stay.
theorem foldl_push_ended (more : List α) (s : Lines α) :
    ∃ later, (more.foldl (push cr lf) s).ended = s.ended ++ later := by
  induction more generalizing s with
  | nil => exact ⟨[], (List.append_nil _).symm⟩
  | cons c more ih =>
      obtain ⟨later, hlater⟩ := ih (push cr lf s c)
      rw [List.foldl_cons, hlater]
      unfold push
      split
      · split
        · exact ⟨later, rfl⟩
        · exact ⟨s.line :: later, by simp⟩
      · split
        · exact ⟨s.line :: later, by simp⟩
        · exact ⟨later, rfl⟩

variable (cr lf) in
-- The line that has not been ended goes on up to the next break.
theorem foldl_push_open (more : List α) {s : Lines α} (hafter : s.afterCr = false) :
    ∃ later, (more.foldl (push cr lf) s).ended ++ [(more.foldl (push cr lf) s).line] =
      s.ended ++ (s.line ++ more.takeWhile fun c => !decide (IsBreak cr lf c)) :: later := by
  have hsplit := List.takeWhile_append_dropWhile (p := fun c => !decide (IsBreak cr lf c)) (l := more)
  have htext : ∀ c ∈ more.takeWhile fun c => !decide (IsBreak cr lf c), ¬IsBreak cr lf c := by
    intro c hc
    simpa using List.all_eq_true.mp (List.all_takeWhile (l := more)) c hc
  generalize more.takeWhile (fun c => !decide (IsBreak cr lf c)) = text at hsplit htext
  cases hrest : more.dropWhile fun c => !decide (IsBreak cr lf c) with
  | nil =>
      rw [hrest, List.append_nil] at hsplit
      rw [← hsplit, foldl_push_text htext]
      exact ⟨[], rfl⟩
  | cons c rest =>
      have hbreak : IsBreak cr lf c := by
        have hhead := List.head?_dropWhile_not (fun c => !decide (IsBreak cr lf c)) more
        rw [hrest] at hhead
        simpa using hhead
      rw [hrest] at hsplit
      rw [← hsplit, List.foldl_append, foldl_push_text htext, List.foldl_cons, push_break hbreak (by simp [hafter])]
      obtain ⟨later, hlater⟩ := foldl_push_ended cr lf rest
        { ended := s.ended ++ [s.line ++ text], line := [], afterCr := !decide (c = lf) }
      rw [hlater]
      exact ⟨later ++ [_], by simp; rfl⟩

theorem foldl_push_lines {texts : List (List α)} (hne : cr ≠ lf) (h : ∀ line ∈ texts, ∀ c ∈ line, ¬IsBreak cr lf c)
    (ended : List (List α)) :
    (texts.flatMap fun line => line ++ [cr, lf]).foldl (push cr lf) { ended, line := [], afterCr := false } =
      { ended := ended ++ texts, line := [], afterCr := false } := by
  induction texts generalizing ended with
  | nil => simp
  | cons line texts ih =>
      have hline : (line ++ [cr, lf]).foldl (push cr lf) { ended, line := [], afterCr := false } =
          { ended := ended ++ [line], line := [], afterCr := false } := by
        rw [List.foldl_append, foldl_push_text (h line List.mem_cons_self)]
        simp [push, hne]
      rw [List.flatMap_cons, List.foldl_append, hline, ih fun other hother => h other (List.mem_cons_of_mem _ hother)]
      simp

end Lines

end ToInet.Lib
