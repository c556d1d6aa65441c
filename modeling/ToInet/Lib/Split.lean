import Mathlib.Data.List.Basic
import ToInet.Lib.Lines

-- The parts of a text between its separators, and what is joined from parts again.
namespace ToInet.Lib

variable {α : Type} [DecidableEq α] {sep : α} {text : List α}

theorem head?_splitOn (sep : α) (text : List α) : (text.splitOn sep).head? = some (text.takeWhile (· ≠ sep)) := by
  induction text with
  | nil => rfl
  | cons c text ih =>
      rw [List.splitOn_cons_eq_if_modifyHead]
      by_cases hc : c = sep
      · simp [hc]
      · simp [hc, List.head?_modifyHead, ih]

theorem getD_splitOn (sep : α) (text : List α) : (text.splitOn sep).getD 0 [] = text.takeWhile (· ≠ sep) := by
  rw [List.getD_eq_getElem?_getD, ← List.head?_eq_getElem?, head?_splitOn, Option.getD_some]

theorem join_splitOn (sep : α) (text : List α) : [sep].intercalate (text.splitOn sep) = text :=
  List.intercalate_splitOn sep

theorem notMem_of_mem_splitOn {part : List α} (h : part ∈ text.splitOn sep) : sep ∉ part := by
  induction text generalizing part with
  | nil =>
      rw [List.splitOn_nil, List.mem_singleton] at h
      rw [h]
      exact List.not_mem_nil
  | cons c text ih =>
      rw [List.splitOn_cons_eq_if_modifyHead] at h
      split at h
      · obtain rfl | hrest := List.mem_cons.mp h
        · exact List.not_mem_nil
        · exact ih hrest
      · rename_i hc
        cases hsplit : text.splitOn sep with
        | nil => exact absurd hsplit (List.splitOn_ne_nil sep text)
        | cons first parts =>
            rw [hsplit, List.modifyHead_cons] at h
            rw [hsplit] at ih
            obtain rfl | hrest := List.mem_cons.mp h
            · rw [List.mem_cons, not_or]
              exact ⟨fun hsame => hc (by rw [hsame]; exact beq_self_eq_true c), ih List.mem_cons_self⟩
            · exact ih (List.mem_cons_of_mem _ hrest)

omit [DecidableEq α] in
-- A character of a joined text stands in one of the parts or parts them.
theorem mem_intercalate {c : α} {parts : List (List α)} (hc : c ∈ [sep].intercalate parts) :
    c = sep ∨ ∃ part ∈ parts, c ∈ part := by
  induction parts with
  | nil => simp at hc
  | cons part parts ih =>
      cases parts with
      | nil =>
          rw [List.intercalate_singleton] at hc
          exact .inr ⟨part, List.mem_cons_self, hc⟩
      | cons other parts =>
          rw [List.intercalate_cons_cons, List.mem_append, List.mem_append] at hc
          obtain (hpart | hsep) | hrest := hc
          · exact .inr ⟨part, List.mem_cons_self, hpart⟩
          · exact .inl (List.mem_singleton.mp hsep)
          · exact (ih hrest).imp_right fun ⟨other, hother, hmem⟩ => ⟨other, List.mem_cons_of_mem _ hother, hmem⟩

omit [DecidableEq α] in
theorem mem_intercalate_of_mem {c : α} {part : List α} {parts : List (List α)} (hpart : part ∈ parts) (hc : c ∈ part) :
    c ∈ [sep].intercalate parts := by
  induction parts with
  | nil => cases hpart
  | cons first parts ih =>
      cases parts with
      | nil =>
          rw [List.mem_singleton] at hpart
          rwa [List.intercalate_singleton, ← hpart]
      | cons other parts =>
          rw [List.intercalate_cons_cons, List.mem_append, List.mem_append]
          obtain rfl | hrest := List.mem_cons.mp hpart
          · exact .inl (.inl hc)
          · exact .inr (ih hrest)

omit [DecidableEq α] in
theorem intercalate_concat_nil {parts : List (List α)} (hne : parts ≠ []) :
    [sep].intercalate (parts ++ [[]]) = [sep].intercalate parts ++ [sep] := by
  induction parts with
  | nil => exact absurd rfl hne
  | cons part parts ih =>
      by_cases hparts : parts = []
      · rw [hparts, List.singleton_append, List.intercalate_cons_cons, List.intercalate_singleton,
          List.intercalate_singleton, List.append_nil]
      · rw [List.cons_append, List.intercalate_cons_of_ne_nil (List.append_ne_nil_of_left_ne_nil hparts _),
          List.intercalate_cons_of_ne_nil hparts, ih hparts, List.append_assoc, List.append_assoc, List.append_assoc]

omit [DecidableEq α] in
-- Empty parts at the end are separators.
theorem intercalate_append_replicate {parts : List (List α)} (hne : parts ≠ []) (n : Nat) :
    [sep].intercalate (parts ++ List.replicate n []) = [sep].intercalate parts ++ List.replicate n sep := by
  induction n with
  | zero => rw [List.replicate_zero, List.replicate_zero, List.append_nil, List.append_nil]
  | succ n ih =>
      rw [List.replicate_succ', List.replicate_succ', ← List.append_assoc, ← List.append_assoc, ← ih]
      exact intercalate_concat_nil (List.append_ne_nil_of_left_ne_nil hne _)

theorem mem_splitOn (sep : α) {c : α} (hc : c ∈ text) : c = sep ∨ ∃ part ∈ text.splitOn sep, c ∈ part := by
  rw [← join_splitOn sep text] at hc
  exact mem_intercalate hc

theorem mem_of_mem_splitOn {part : List α} (h : part ∈ text.splitOn sep) : ∀ c ∈ part, c ∈ text := by
  intro c hc
  rw [← join_splitOn sep text]
  exact mem_intercalate_of_mem h hc

-- The text behind the last separator, or all of a text without one.
def lastPart (sep : α) (text : List α) : List α := (text.splitOn sep).getLastD []

theorem lastPart_mem (sep : α) (text : List α) : lastPart sep text ∈ text.splitOn sep := by
  have hne := List.splitOn_ne_nil sep text
  rw [lastPart, List.getLastD_eq_getLast?, List.getLast?_eq_some_getLast hne, Option.getD_some]
  exact List.getLast_mem hne

theorem notMem_lastPart (sep : α) (text : List α) : sep ∉ lastPart sep text :=
  notMem_of_mem_splitOn (lastPart_mem sep text)

theorem mem_of_mem_lastPart {c : α} (h : c ∈ lastPart sep text) : c ∈ text :=
  mem_of_mem_splitOn (lastPart_mem sep text) c h

theorem lastPart_eq_self (h : sep ∉ text) : lastPart sep text = text := by
  rw [lastPart, List.splitOn_eq_singleton h]
  rfl

theorem lastPart_append_cons (front back : List α) : lastPart sep (front ++ sep :: back) = lastPart sep back := by
  have hne := List.splitOn_ne_nil sep back
  rw [lastPart, List.splitOn_append_cons_self, List.getLastD_eq_getLast?, List.getLast?_append_of_ne_nil _ hne,
    ← List.getLastD_eq_getLast?, lastPart]

-- The parts in front of the last one.
def frontPart (sep : α) (text : List α) : List α := [sep].intercalate (text.splitOn sep).dropLast

theorem frontPart_append_cons {front back : List α} (h : sep ∉ back) :
    frontPart sep (front ++ sep :: back) = front := by
  rw [frontPart, List.splitOn_append_cons_self, List.splitOn_eq_singleton h, List.dropLast_concat, join_splitOn]

omit [DecidableEq α] in
-- A text with a separator is cut at the last one.
theorem exists_last (h : sep ∈ text) : ∃ front back, text = front ++ sep :: back ∧ sep ∉ back := by
  obtain ⟨back, front, hreverse, hback⟩ := List.eq_append_cons_of_mem (List.mem_reverse.mpr h)
  refine ⟨front.reverse, back.reverse, ?_, fun hmem => hback (List.mem_reverse.mp hmem)⟩
  rw [← List.reverse_reverse text, hreverse]
  simp

theorem eq_append_of_frontPart_ne_nil (h : frontPart sep text ≠ []) :
    text = frontPart sep text ++ sep :: lastPart sep text := by
  by_cases hmem : sep ∈ text
  · obtain ⟨front, back, rfl, hback⟩ := exists_last hmem
    rw [frontPart_append_cons hback, lastPart_append_cons, lastPart_eq_self hback]
  · rw [frontPart, List.splitOn_eq_singleton hmem] at h
    exact absurd rfl h

omit [DecidableEq α] in
-- A word without the separator stands on one side of it.
theorem infix_append_cons_iff {word front back : List α} (h : sep ∉ word) :
    word <:+: front ++ sep :: back ↔ word <:+: front ∨ word <:+: back := by
  constructor
  · rintro ⟨before, behind, heq⟩
    obtain ⟨rest, hfront, -⟩ | ⟨rest, hword, hback⟩ := List.append_eq_append_iff.mp heq
    · exact .inl ⟨before, rest, hfront.symm⟩
    obtain _ | ⟨c, rest⟩ := rest
    · exact .inl ⟨before, [], by rw [hword, List.append_nil, List.append_nil]⟩
    obtain ⟨rfl, rfl⟩ := List.cons.inj hback
    obtain ⟨middle, -, hmiddle⟩ | ⟨middle, -, hmiddle⟩ := List.append_eq_append_iff.mp hword
    · exact absurd (hmiddle ▸ List.mem_append_right middle List.mem_cons_self) h
    · obtain _ | ⟨d, middle⟩ := middle
      · rw [List.nil_append] at hmiddle
        exact absurd (hmiddle ▸ List.mem_cons_self) h
      · obtain rfl := (List.cons.inj hmiddle).2
        exact .inr ⟨middle, behind, rfl⟩
  · rintro (h | h)
    · exact h.trans (List.prefix_append front _).isInfix
    · exact h.trans ((List.suffix_cons sep back).trans (List.suffix_append front _)).isInfix

omit [DecidableEq α] in
theorem infix_intercalate_iff {word : List α} {parts : List (List α)} (h : sep ∉ word) (hne : parts ≠ []) :
    word <:+: [sep].intercalate parts ↔ ∃ part ∈ parts, word <:+: part := by
  induction parts with
  | nil => exact absurd rfl hne
  | cons part parts ih =>
      cases parts with
      | nil => simp
      | cons other parts =>
          rw [List.intercalate_cons_cons, List.append_assoc, List.singleton_append, infix_append_cons_iff h,
            ih (List.cons_ne_nil _ _)]
          exact (List.exists_mem_cons_iff _ _ _).symm

-- Joined parts are read part by part as far as they have no separator.
theorem splitOn_intercalate_append {parts rest : List (List α)} (hparts : ∀ part ∈ parts, sep ∉ part)
    (hrest : rest ≠ []) :
    ([sep].intercalate (parts ++ rest)).splitOn sep = parts ++ ([sep].intercalate rest).splitOn sep := by
  induction parts with
  | nil => rfl
  | cons part parts ih =>
      obtain ⟨hpart, hparts⟩ := List.forall_mem_cons.mp hparts
      rw [List.cons_append, List.intercalate_cons_of_ne_nil (List.append_ne_nil_of_right_ne_nil parts hrest),
        List.append_assoc, List.singleton_append, List.splitOn_append_cons_self_of_not_mem hpart, ih hparts,
        List.cons_append]

theorem splitOn_append {back : List α} (h : sep ∉ back) :
    (text ++ back).splitOn sep = (text.splitOn sep).dropLast ++ [lastPart sep text ++ back] := by
  by_cases hmem : sep ∈ text
  · obtain ⟨front, last, rfl, hlast⟩ := exists_last hmem
    have hboth : sep ∉ last ++ back := fun hboth => (List.mem_append.mp hboth).elim hlast h
    rw [List.append_assoc, List.cons_append, List.splitOn_append_cons_self, List.splitOn_append_cons_self,
      List.splitOn_eq_singleton hboth, List.splitOn_eq_singleton hlast, List.dropLast_concat, lastPart_append_cons,
      lastPart_eq_self hlast]
  · have hboth : sep ∉ text ++ back := fun hboth => (List.mem_append.mp hboth).elim hmem h
    rw [List.splitOn_eq_singleton hboth, List.splitOn_eq_singleton hmem, lastPart_eq_self hmem]
    rfl

-- What is added behind the last separator.
theorem lastPart_append {back : List α} (h : sep ∉ back) : lastPart sep (text ++ back) = lastPart sep text ++ back := by
  by_cases hmem : sep ∈ text
  · obtain ⟨front, last, rfl, hlast⟩ := exists_last hmem
    rw [List.append_assoc, List.cons_append, lastPart_append_cons, lastPart_append_cons, lastPart_eq_self hlast,
      lastPart_eq_self]
    exact fun hboth => (List.mem_append.mp hboth).elim hlast h
  · rw [lastPart_eq_self hmem, lastPart_eq_self]
    exact fun hboth => (List.mem_append.mp hboth).elim hmem h

end ToInet.Lib
