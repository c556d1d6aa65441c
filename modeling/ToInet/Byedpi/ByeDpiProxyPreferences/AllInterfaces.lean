import ToInet.Byedpi.ByeDpiProxyPreferences.ShellSplit.Complete

-- What is appended to the text of a command, and what it appends to the arguments.
namespace ToInet.Byedpi

namespace ShellSplit

variable {s : ShellSplit} {text : List Char} {c : Char} {i : Nat}

-- The characters that have come into a token.
def written (s : ShellSplit) : List Char := s.tokens.flatten ++ s.current

theorem written_push (s : ShellSplit) (i : Nat) : (s.push i).written = s.written := by
  obtain hpush | ⟨-, hpush⟩ := s.push_eq_or i <;> rw [hpush]
  simp [written]

theorem flatten_shellSplit (text : List Char) : (shellSplit text).flatten = (start.readAll text 0).written := by
  rw [shellSplit_eq, ← written_push _ text.length, written, push_current, List.append_nil]

theorem written_append (s : ShellSplit) (c : Char) :
    ({ s with current := s.current ++ [c] } : ShellSplit).written = s.written ++ [c] := by
  rw [written, written, List.append_assoc]

theorem read_escaping (h : s.escaping = true) (c : Char) (i : Nat) :
    s.read c i = { s with current := s.current ++ [c], escaping := false } := by
  rw [read, if_pos h]

-- Within quotes, whitespace is text.
theorem read_plain (hescaping : s.escaping = false) (hquote : s.quoting = true → IsQuote s.quoteChar) (hc : IsPlain c)
    (hspace : s.quoting = true ∨ isWhitespace c = false) (i : Nat) :
    s.read c i = { s with current := s.current ++ [c] } := by
  have hclose : ¬(s.quoting = true ∧ c = s.quoteChar) := by
    rintro ⟨hquoting, rfl⟩
    exact (hquote hquoting).elim hc.2.1 hc.2.2
  have hends : ¬(¬s.quoting = true ∧ isWhitespace c = true) := by
    rintro ⟨houtside, hends⟩
    obtain hquoting | hspace := hspace
    · exact houtside hquoting
    · exact Bool.false_ne_true (hspace.symm.trans hends)
  rw [IsPlain] at hc
  rw [read, if_neg (by simp [hescaping]), if_neg (by simp [hc]), if_neg hclose, if_neg (by simp [hc]), if_neg hends]

theorem written_quoting (hescaping : s.escaping = false) (hquoting : s.quoting = true) (hquote : IsQuote s.quoteChar)
    (htext : ∀ c ∈ text, IsPlain c) (i : Nat) : (s.readAll text i).written = s.written ++ text := by
  induction text generalizing s i with
  | nil => rw [List.append_nil]; rfl
  | cons c text ih =>
      rw [List.forall_mem_cons] at htext
      rw [readAll_cons, read_plain hescaping (fun _ => hquote) htext.1 (.inl hquoting)]
      refine (ih ?_ ?_ ?_ htext.2 _).trans ?_
      · exact hescaping
      · exact hquoting
      · exact hquote
      · rw [written_append, List.append_assoc, List.singleton_append]

theorem written_outside (hescaping : s.escaping = false) (hquoting : s.quoting = false)
    (htext : ∀ c ∈ text, IsPlain c) (i : Nat) :
    (s.readAll text i).written = s.written ++ text.filter fun c => !isWhitespace c := by
  induction text generalizing s i with
  | nil => rw [List.filter_nil, List.append_nil]; rfl
  | cons c text ih =>
      rw [List.forall_mem_cons] at htext
      rw [readAll_cons]
      cases hspace : isWhitespace c with
      | true =>
          rw [read_space hescaping hquoting hspace, List.filter_cons_of_neg (by simp [hspace])]
          refine (ih ?_ ?_ htext.2 _).trans ?_
          · rw [push_escaping, hescaping]
          · rw [push_quoting, hquoting]
          · rw [written_push]
      | false =>
          have hquote : s.quoting = true → IsQuote s.quoteChar := by simp [hquoting]
          rw [read_plain hescaping hquote htext.1 (.inr hspace), List.filter_cons_of_pos (by simp [hspace])]
          refine (ih ?_ ?_ htext.2 _).trans ?_
          · exact hescaping
          · exact hquoting
          · rw [written_append, List.append_assoc, List.singleton_append]

-- A quote that is open is one of the two.
theorem read_isQuote (h : s.quoting = true → IsQuote s.quoteChar) (c : Char) (i : Nat) :
    (s.read c i).quoting = true → IsQuote (s.read c i).quoteChar := by
  rw [read]
  split_ifs with _ _ _ hopen
  · exact h
  · exact h
  · exact False.elim
  · exact fun _ => hopen.2
  · rw [push_quoting, push_quoteChar]
    exact h
  · exact h

theorem readAll_isQuote (h : s.quoting = true → IsQuote s.quoteChar) (text : List Char) (i : Nat) :
    (s.readAll text i).quoting = true → IsQuote (s.readAll text i).quoteChar := by
  induction text generalizing s i with
  | nil => exact h
  | cons c text ih => exact ih (read_isQuote h c i) _

theorem le_written (hescaping : s.escaping = false) (hquote : s.quoting = true → IsQuote s.quoteChar)
    (htext : ∀ c ∈ text, IsPlain c) (i : Nat) :
    s.written.length + (text.filter fun c => !isWhitespace c).length ≤ (s.readAll text i).written.length := by
  cases hquoting : s.quoting with
  | true =>
      rw [written_quoting hescaping hquoting (hquote hquoting) htext, List.length_append]
      exact Nat.add_le_add_left (List.length_filter_le _ _) _
  | false => rw [written_outside hescaping hquoting htext, List.length_append]

-- A pending backslash keeps the first character, whatever it is.
theorem lt_written (hescaping : s.escaping = true) (hquote : s.quoting = true → IsQuote s.quoteChar) (c : Char)
    (htext : ∀ c ∈ text, IsPlain c) (i : Nat) :
    s.written.length + (text.filter fun c => !isWhitespace c).length < (s.readAll (c :: text) i).written.length := by
  have hkept : (s.read c i).written = s.written ++ [c] := by
    rw [read_escaping hescaping]
    exact written_append s c
  have hle : (s.read c i).written.length + (text.filter fun c => !isWhitespace c).length ≤
      (s.readAll (c :: text) i).written.length := by
    rw [readAll_cons, read_escaping hescaping]
    exact le_written (s := { s with current := s.current ++ [c], escaping := false }) rfl hquote htext _
  rw [hkept, List.length_append, List.length_singleton] at hle
  omega

-- No character of the appended text is lost or added only outside of quotes, where a space is none.
theorem outside_of_written {blanks : List Char} (hquote : s.quoting = true → IsQuote s.quoteChar)
    (hblanks : ∀ c ∈ blanks, IsPlain c)
    (h : (s.readAll (blanks ++ " -i 0.0.0.0".toList) i).written = s.written ++ "-i0.0.0.0".toList) :
    s.escaping = false ∧ s.quoting = false ∧ ∀ c ∈ blanks, isWhitespace c = true := by
  have hplain : ∀ c ∈ " -i 0.0.0.0".toList, IsPlain c := by simp [IsPlain]
  have hfilter : (" -i 0.0.0.0".toList.filter fun c => !isWhitespace c) = "-i0.0.0.0".toList := by decide
  have hall : ∀ c ∈ blanks ++ " -i 0.0.0.0".toList, IsPlain c := List.forall_mem_append.mpr ⟨hblanks, hplain⟩
  have hlength := congrArg List.length h
  rw [List.length_append, show "-i0.0.0.0".toList.length = 9 from rfl] at hlength
  have hescaping : s.escaping = false := by
    refine Bool.eq_false_iff.mpr fun hescaping => ?_
    cases blanks with
    | nil =>
        have hlt := lt_written hescaping hquote ' ' (show ∀ c ∈ "-i 0.0.0.0".toList, IsPlain c by simp [IsPlain]) i
        rw [show ("-i 0.0.0.0".toList.filter fun c => !isWhitespace c).length = 9 by decide] at hlt
        exact absurd hlength hlt.ne'
    | cons c blanks =>
        rw [List.cons_append] at hall hlength
        have hlt := lt_written hescaping hquote c (List.forall_mem_of_forall_mem_cons hall) i
        rw [List.filter_append, hfilter, List.length_append, show "-i0.0.0.0".toList.length = 9 from rfl] at hlt
        omega
  have hquoting : s.quoting = false := by
    refine Bool.eq_false_iff.mpr fun hquoting => ?_
    rw [written_quoting hescaping hquoting (hquote hquoting) hall, List.length_append, List.length_append,
      show " -i 0.0.0.0".toList.length = 11 from rfl] at hlength
    omega
  refine ⟨hescaping, hquoting, ?_⟩
  rw [written_outside hescaping hquoting hall, List.filter_append, hfilter] at h
  have hnone : blanks.filter (fun c => !isWhitespace c) = [] :=
    List.append_left_eq_self.mp (List.append_cancel_left h)
  simpa [List.filter_eq_nil_iff] using hnone

end ShellSplit

theorem shellSplit_appends_iff {text blanks : List Char} (hblanks : ∀ c ∈ blanks, IsPlain c) :
    shellSplit (text ++ (blanks ++ " -i 0.0.0.0".toList)) = shellSplit text ++ ["-i".toList, "0.0.0.0".toList] ↔
      Complete text ∧ ∀ c ∈ blanks, isWhitespace c = true := by
  constructor
  · intro h
    have hwritten := congrArg List.flatten h
    rw [List.flatten_append, ShellSplit.flatten_shellSplit, ShellSplit.flatten_shellSplit,
      ShellSplit.readAll_append] at hwritten
    have hquote := ShellSplit.readAll_isQuote (s := ShellSplit.start) nofun text 0
    obtain ⟨hescaping, hquoting, hspace⟩ := ShellSplit.outside_of_written hquote hblanks hwritten
    exact ⟨(ShellSplit.complete_iff text).mpr ⟨hescaping, hquoting⟩, hspace⟩
  · rintro ⟨htext, hspace⟩
    have hspaces : ∀ c ∈ blanks ++ [' '], isWhitespace c = true :=
      List.forall_mem_append.mpr ⟨hspace, List.forall_mem_singleton.mpr (by decide)⟩
    have hparts : blanks ++ " -i 0.0.0.0".toList = (blanks ++ [' ']) ++ "-i 0.0.0.0".toList := by
      rw [List.append_assoc]
      rfl
    rw [hparts, shellSplit_append (ShellSplit.outside_of_complete htext) (by simp) hspaces]
    rfl

namespace ByeDpiProxyCmdPreferences

variable {cmd : List Char}

-- A command from its first option on.
def options (cmd : List Char) : List Char := cmd.dropWhile (· ≠ '-')

-- Without the blanks at their end the options are complete, and these blanks separate arguments.
structure EndsApart (cmd : List Char) : Prop where
  complete : Complete (trim (options cmd))
  trailing : ∀ c ∈ (options cmd).rtakeWhile isBlankChar, isWhitespace c = true

theorem exists_options (h : '-' ∈ cmd) :
    ∃ args, options cmd = '-' :: args ∧ ∀ rest, options (cmd ++ rest) = '-' :: (args ++ rest) := by
  obtain ⟨front, args, rfl, hfront⟩ := List.eq_append_cons_of_mem h
  have hskip : ∀ c ∈ front, decide (c ≠ '-') = true := by
    intro c hc
    rw [decide_eq_true_eq]
    rintro rfl
    exact hfront hc
  have hoptions : ∀ rest, options (front ++ '-' :: rest) = '-' :: rest := by
    intro rest
    rw [options, List.dropWhile_append_of_pos hskip, List.dropWhile_cons_of_neg (by simp)]
  refine ⟨args, hoptions args, fun rest => ?_⟩
  rw [List.append_assoc, List.cons_append, hoptions]

theorem cmdToArgs_eq {args : List Char} (h : options cmd = '-' :: args) :
    cmdToArgs cmd = "ciadpi".toList :: shellSplit (trim (options cmd)) := by
  rw [options] at h
  rw [cmdToArgs, options, h]

-- An option is not blank, so trim takes nothing off its front.
theorem trim_option (args : List Char) : trim ('-' :: args) = ('-' :: args).rdropWhile isBlankChar := by
  rw [trim, List.dropWhile_cons_of_neg (by decide)]

theorem trim_option_append (args : List Char) :
    trim ('-' :: (args ++ " -i 0.0.0.0".toList)) = '-' :: (args ++ " -i 0.0.0.0".toList) := by
  have hlast : '-' :: (args ++ " -i 0.0.0.0".toList) = '-' :: (args ++ " -i 0.0.0.".toList) ++ ['0'] := by
    rw [List.cons_append, List.append_assoc]
    rfl
  rw [trim_option, hlast, List.rdropWhile_concat_neg _ _ _ (by decide)]

-- The arguments are appended exactly where the command ends apart from them.
theorem ofCmd_appends_iff (cmd : List Char) (h : '-' ∈ cmd) :
    (ofCmd true cmd).args = (ofCmd false cmd).args ++ ["-i".toList, "0.0.0.0".toList] ↔ EndsApart cmd := by
  obtain ⟨args, hoptions, happend⟩ := exists_options h
  have hblanks : ∀ c ∈ (options cmd).rtakeWhile isBlankChar, IsPlain c := fun c hc =>
    isPlain_of_isBlankChar (List.mem_rtakeWhile_imp hc)
  have hsplit : '-' :: args = trim (options cmd) ++ (options cmd).rtakeWhile isBlankChar := by
    rw [hoptions, trim_option, List.rdropWhile_append_rtakeWhile]
  have hoff : (ofCmd false cmd).args = "ciadpi".toList :: shellSplit (trim (options cmd)) := cmdToArgs_eq hoptions
  have hon : (ofCmd true cmd).args = "ciadpi".toList ::
      shellSplit (trim (options cmd) ++ ((options cmd).rtakeWhile isBlankChar ++ " -i 0.0.0.0".toList)) := by
    rw [ofCmd, if_pos rfl, cmdToArgs_eq (happend _), happend, trim_option_append, ← List.cons_append, hsplit,
      List.append_assoc]
  rw [hon, hoff, List.cons_append, List.cons.injEq, eq_self, true_and, shellSplit_appends_iff hblanks]
  exact ⟨fun ⟨hcomplete, htrailing⟩ => ⟨hcomplete, htrailing⟩, fun h => ⟨h.complete, h.trailing⟩⟩

-- A quoted argument with a space at its end, and whitespace behind it.
theorem ofCmd_appends_quoted :
    '-' ∈ "-d1 -n 'a ' \t".toList ∧
      (ofCmd true "-d1 -n 'a ' \t".toList).args =
        (ofCmd false "-d1 -n 'a ' \t".toList).args ++ ["-i".toList, "0.0.0.0".toList] := by
  refine ⟨by decide, (ofCmd_appends_iff _ (by decide)).mpr ⟨?_, List.all_eq_true.mp (by decide)⟩⟩
  exact (ShellSplit.complete_iff _).mpr (by decide)

-- The space at the end is escaped. trim takes it off the command, unless text follows.
theorem not_ofCmd_appends_escaped :
    '-' ∈ "-n a\\ ".toList ∧
      (ofCmd true "-n a\\ ".toList).args ≠
        (ofCmd false "-n a\\ ".toList).args ++ ["-i".toList, "0.0.0.0".toList] := by
  decide

end ByeDpiProxyCmdPreferences

end ToInet.Byedpi
