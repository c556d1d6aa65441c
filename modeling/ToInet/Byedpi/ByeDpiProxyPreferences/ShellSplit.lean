import ToInet.Byedpi.ByeDpiProxyPreferences

-- Texts that are split one behind the other, and arguments that are quoted, and split again.
namespace ToInet.Byedpi

open ToInet.Lib.Getopt

-- Neither a quote nor a backslash.
def IsPlain (c : Char) : Prop := c ≠ '\\' ∧ c ≠ '\'' ∧ c ≠ '"'

instance : DecidablePred IsPlain := fun c => inferInstanceAs (Decidable (c ≠ '\\' ∧ c ≠ '\'' ∧ c ≠ '"'))

theorem isPlain_of_isBlankChar {c : Char} (hc : isBlankChar c = true) : IsPlain c := by
  refine ⟨?_, ?_, ?_⟩ <;>
  · rintro rfl
    revert hc
    decide

theorem isPlain_of_isWhitespace {c : Char} (hc : isWhitespace c = true) : IsPlain c :=
  isPlain_of_isBlankChar (by rw [isBlankChar, hc, Bool.true_or])

namespace ShellSplit

def start : ShellSplit :=
  { tokens := [], escaping := false, quoteChar := ' ', quoting := false, lastCloseQuoteIndex := none, current := [] }

-- The loop over the text, from an index on.
def readAll (s : ShellSplit) (text : List Char) (i : Nat) : ShellSplit :=
  (text.zipIdx i).foldl (fun s (c, i) => s.read c i) s

variable {s t : ShellSplit} {tokens : List Arg} {current text : List Char} {c : Char} {i j : Nat}

theorem readAll_cons (s : ShellSplit) (c : Char) (text : List Char) (i : Nat) :
    s.readAll (c :: text) i = (s.read c i).readAll text (i + 1) := rfl

theorem readAll_append (s : ShellSplit) (text rest : List Char) (i : Nat) :
    s.readAll (text ++ rest) i = (s.readAll text i).readAll rest (i + text.length) := by
  rw [readAll, List.zipIdx_append, List.foldl_append]
  rfl

theorem push_eq_or (s : ShellSplit) (i : Nat) :
    s.push i = { s with tokens := s.tokens ++ [s.current], current := [] } ∨ s.current = [] ∧ s.push i = s := by
  rw [push]
  split
  · exact .inl rfl
  · rename_i hempty
    exact .inr ⟨of_not_not fun hcurrent => hempty (.inl hcurrent), rfl⟩

theorem push_current (s : ShellSplit) (i : Nat) : (s.push i).current = [] := by
  obtain hpush | ⟨hcurrent, hpush⟩ := s.push_eq_or i <;> rw [hpush]
  exact hcurrent

@[simp] theorem push_escaping (s : ShellSplit) (i : Nat) : (s.push i).escaping = s.escaping := by
  obtain hpush | ⟨-, hpush⟩ := s.push_eq_or i <;> rw [hpush]

@[simp] theorem push_quoting (s : ShellSplit) (i : Nat) : (s.push i).quoting = s.quoting := by
  obtain hpush | ⟨-, hpush⟩ := s.push_eq_or i <;> rw [hpush]

@[simp] theorem push_quoteChar (s : ShellSplit) (i : Nat) : (s.push i).quoteChar = s.quoteChar := by
  obtain hpush | ⟨-, hpush⟩ := s.push_eq_or i <;> rw [hpush]

@[simp] theorem push_lastCloseQuoteIndex (s : ShellSplit) (i : Nat) :
    (s.push i).lastCloseQuoteIndex = s.lastCloseQuoteIndex := by
  obtain hpush | ⟨-, hpush⟩ := s.push_eq_or i <;> rw [hpush]

theorem read_space (hescaping : s.escaping = false) (hquoting : s.quoting = false) (hc : isWhitespace c = true) :
    s.read c i = s.push i := by
  have hplain := isPlain_of_isWhitespace hc
  rw [IsPlain] at hplain
  simp [read, hescaping, hquoting, hc, hplain]

-- Nothing of a token has been read, and no quote has been closed right before the index.
structure Between (tokens : List Arg) (i : Nat) (s : ShellSplit) : Prop where
  tokens : s.tokens = tokens
  escaping : s.escaping = false
  quoting : s.quoting = false
  current : s.current = []
  closed : ∀ j, s.lastCloseQuoteIndex = some j → j + 1 < i

theorem Between.push_eq (h : Between tokens i s) : s.push i = s := by
  rw [push, if_neg]
  rintro (hcurrent | hclosed)
  · exact hcurrent h.current
  · obtain ⟨j, hj, hsucc⟩ := Option.map_eq_some_iff.mp hclosed
    have := h.closed j hj
    omega

theorem Between.space (h : Between tokens i s) (hc : isWhitespace c = true) : Between tokens (i + 1) (s.read c i) := by
  rw [read_space h.escaping h.quoting hc, h.push_eq]
  exact ⟨h.tokens, h.escaping, h.quoting, h.current, fun j hj => by have := h.closed j hj; omega⟩

theorem Between.readAll_space {space : List Char} (h : Between tokens i s)
    (hspace : ∀ c ∈ space, isWhitespace c = true) : Between tokens (i + space.length) (s.readAll space i) := by
  induction space generalizing s i with
  | nil => exact h
  | cons c space ih =>
      rw [List.forall_mem_cons] at hspace
      rw [readAll_cons, List.length_cons, Nat.add_comm space.length, ← Nat.add_assoc]
      exact ih (h.space hspace.1) hspace.2

-- In front of the index, outside of quotes and with no backslash pending.
structure Outside (i : Nat) (s : ShellSplit) : Prop where
  escaping : s.escaping = false
  quoting : s.quoting = false
  closed : ∀ j, s.lastCloseQuoteIndex = some j → j < i

theorem Outside.space (h : Outside i s) (hc : isWhitespace c = true) :
    Between (s.push i).tokens (i + 1) (s.read c i) := by
  rw [read_space h.escaping h.quoting hc]
  refine ⟨rfl, ?_, ?_, s.push_current i, fun j hj => ?_⟩
  · rw [push_escaping, h.escaping]
  · rw [push_quoting, h.quoting]
  · rw [push_lastCloseQuoteIndex] at hj
    exact Nat.add_lt_add_right (h.closed j hj) 1

-- The first character behind a token ends it, the others change nothing.
theorem Outside.readAll_space {space : List Char} (h : Outside i s) (hne : space ≠ [])
    (hspace : ∀ c ∈ space, isWhitespace c = true) :
    Between (s.push i).tokens (i + space.length) (s.readAll space i) := by
  cases space with
  | nil => exact absurd rfl hne
  | cons c space =>
      rw [List.forall_mem_cons] at hspace
      rw [readAll_cons, List.length_cons, Nat.add_comm space.length, ← Nat.add_assoc]
      exact (h.space hspace.1).readAll_space hspace.2

-- The splitter at an index as it would be at another, had it read nothing but what is behind the
-- tokens.
structure Resumes (tokens : List Arg) (i j : Nat) (s t : ShellSplit) : Prop where
  tokens : s.tokens = tokens ++ t.tokens
  escaping : s.escaping = t.escaping
  quoting : s.quoting = t.quoting
  quoteChar : t.quoting = true → s.quoteChar = t.quoteChar
  current : s.current = t.current
  closed : ∀ k, s.lastCloseQuoteIndex.map (· + 1) = some (i + k) ↔
    t.lastCloseQuoteIndex.map (· + 1) = some (j + k)

theorem Between.resumes (h : Between tokens i s) : Resumes tokens i 0 s start := by
  refine ⟨?_, h.escaping, h.quoting, nofun, h.current, fun k => ?_⟩
  · rw [h.tokens, start, List.append_nil]
  · simp only [start, Option.map_none, reduceCtorEq, iff_false]
    intro hclosed
    obtain ⟨j, hj, hsucc⟩ := Option.map_eq_some_iff.mp hclosed
    have := h.closed j hj
    omega

theorem Resumes.push (h : Resumes tokens i j s t) : Resumes tokens i j (s.push i) (t.push j) := by
  obtain ⟨htokens, hescaping, hquoting, hquoteChar, hcurrent, hclosed⟩ := h
  have hpush : (s.current ≠ [] ∨ s.lastCloseQuoteIndex.map (· + 1) = some i) ↔
      (t.current ≠ [] ∨ t.lastCloseQuoteIndex.map (· + 1) = some j) := or_congr (by rw [hcurrent]) (hclosed 0)
  rw [ShellSplit.push, ShellSplit.push]
  simp only [hpush]
  split
  · refine ⟨?_, hescaping, hquoting, hquoteChar, rfl, hclosed⟩
    rw [htokens, hcurrent, List.append_assoc]
  · exact ⟨htokens, hescaping, hquoting, hquoteChar, hcurrent, hclosed⟩

theorem Resumes.next (h : Resumes tokens i j s t) : Resumes tokens (i + 1) (j + 1) s t := by
  refine ⟨h.tokens, h.escaping, h.quoting, h.quoteChar, h.current, fun k => ?_⟩
  rw [Nat.add_right_comm, Nat.add_right_comm j]
  exact h.closed (k + 1)

theorem Resumes.read (h : Resumes tokens i j s t) (c : Char) :
    Resumes tokens (i + 1) (j + 1) (s.read c i) (t.read c j) := by
  obtain ⟨htokens, hescaping, hquoting, hquoteChar, hcurrent, hclosed⟩ := h.next
  have hsingle : (t.quoting ∧ s.quoteChar = '\'') ↔ (t.quoting ∧ t.quoteChar = '\'') :=
    and_congr_right fun hq => by rw [hquoteChar hq]
  have hclose : (t.quoting ∧ c = s.quoteChar) ↔ (t.quoting ∧ c = t.quoteChar) :=
    and_congr_right fun hq => by rw [hquoteChar hq]
  rw [ShellSplit.read, ShellSplit.read]
  simp only [hescaping, hquoting, hsingle, hclose]
  split_ifs
  · exact ⟨htokens, rfl, rfl, hquoteChar, by rw [hcurrent], hclosed⟩
  · exact ⟨htokens, rfl, rfl, hquoteChar, hcurrent, hclosed⟩
  · exact ⟨htokens, rfl, rfl, nofun, hcurrent, fun k => by simp⟩
  · exact ⟨htokens, rfl, rfl, fun _ => rfl, hcurrent, hclosed⟩
  · exact h.push.next
  · exact ⟨htokens, rfl, rfl, hquoteChar, by rw [hcurrent], hclosed⟩

theorem Resumes.readAll (h : Resumes tokens i j s t) (text : List Char) :
    Resumes tokens (i + text.length) (j + text.length) (s.readAll text i) (t.readAll text j) := by
  induction text generalizing s t i j with
  | nil => exact h
  | cons c text ih =>
      rw [readAll_cons, readAll_cons, List.length_cons, Nat.add_comm text.length, ← Nat.add_assoc, ← Nat.add_assoc]
      exact ih (h.read c)

theorem start_between : Between [] 0 start := ⟨rfl, rfl, rfl, rfl, nofun⟩

end ShellSplit

theorem shellSplit_eq (text : List Char) :
    shellSplit text = ((ShellSplit.start.readAll text 0).push text.length).tokens := rfl

-- Behind whitespace outside of quotes the split begins anew.
theorem shellSplit_append {text space : List Char} (htext : (ShellSplit.start.readAll text 0).Outside text.length)
    (hne : space ≠ []) (hspace : ∀ c ∈ space, isWhitespace c = true) (rest : List Char) :
    shellSplit (text ++ (space ++ rest)) = shellSplit text ++ shellSplit rest := by
  have hresumes := (htext.readAll_space hne hspace).resumes.readAll rest
  have htokens := hresumes.push.tokens
  rw [Nat.zero_add] at htokens
  rw [shellSplit_eq, shellSplit_eq, shellSplit_eq, ShellSplit.readAll_append, ShellSplit.readAll_append, Nat.zero_add,
    List.length_append, List.length_append, ← Nat.add_assoc, htokens]

-- A quote leaves the quotes, is escaped, and opens them again.
def escaped (arg : Arg) : List Char := arg.flatMap fun c => if c = '\'' then "'\\''".toList else [c]

def quoted (arg : Arg) : List Char := '\'' :: (escaped arg ++ ['\''])

-- The arguments in quotes, with whitespace between them.
inductive QuotedLine : List Arg → List Char → Prop where
  | nil : QuotedLine [] []
  | single (arg : Arg) : QuotedLine [arg] (quoted arg)
  | cons {next : Arg} {args : List Arg} {space line : List Char} (arg : Arg) (hne : space ≠ [])
      (hspace : ∀ c ∈ space, isWhitespace c = true) (hline : QuotedLine (next :: args) line) :
      QuotedLine (arg :: next :: args) (quoted arg ++ (space ++ line))

namespace ShellSplit

variable {s : ShellSplit} {tokens : List Arg} {current : List Char} {c : Char} {i : Nat}

-- Within single quotes.
structure Inside (tokens : List Arg) (current : List Char) (s : ShellSplit) : Prop where
  tokens : s.tokens = tokens
  escaping : s.escaping = false
  quoting : s.quoting = true
  quoteChar : s.quoteChar = '\''
  current : s.current = current

-- A quote has been closed right before the index.
structure Behind (tokens : List Arg) (current : List Char) (i : Nat) (s : ShellSplit) : Prop where
  tokens : s.tokens = tokens
  escaping : s.escaping = false
  quoting : s.quoting = false
  current : s.current = current
  closed : s.lastCloseQuoteIndex.map (· + 1) = some i

theorem Between.open (h : Between tokens i s) : Inside tokens [] (s.read '\'' i) := by
  obtain ⟨rfl, hescaping, hquoting, hcurrent, -⟩ := h
  constructor <;> simp [read, hescaping, hquoting, hcurrent]

theorem Inside.close (h : Inside tokens current s) (i : Nat) : Behind tokens current (i + 1) (s.read '\'' i) := by
  obtain ⟨rfl, hescaping, hquoting, hquoteChar, rfl⟩ := h
  constructor <;> simp [read, hescaping, hquoting, hquoteChar]

-- The four characters of a quote.
theorem Inside.escaped_quote (h : Inside tokens current s) (i : Nat) :
    Inside tokens (current ++ ['\'']) (s.readAll "'\\''".toList i) := by
  obtain ⟨rfl, hescaping, hquoting, hquoteChar, rfl⟩ := h
  constructor <;> simp [readAll, read, hescaping, hquoting, hquoteChar]

theorem Inside.read (h : Inside tokens current s) (hc : c ≠ '\'') (i : Nat) :
    Inside tokens (current ++ [c]) (s.read c i) := by
  obtain ⟨rfl, hescaping, hquoting, hquoteChar, rfl⟩ := h
  constructor <;> simp [ShellSplit.read, hescaping, hquoting, hquoteChar, hc]

theorem Inside.readAll_escaped (h : Inside tokens current s) (arg : Arg) (i : Nat) :
    Inside tokens (current ++ arg) (s.readAll (escaped arg) i) := by
  induction arg generalizing s current i with
  | nil =>
      rw [List.append_nil]
      exact h
  | cons c arg ih =>
      rw [escaped, List.flatMap_cons, ← escaped, readAll_append, List.append_cons]
      split
      · rename_i hquote
        subst hquote
        exact ih (h.escaped_quote i) _
      · rename_i hc
        exact ih (h.read hc i) _

theorem Between.readAll_quoted (h : Between tokens i s) (arg : Arg) :
    Behind tokens arg (i + (quoted arg).length) (s.readAll (quoted arg) i) := by
  have hinside := h.open.readAll_escaped arg (i + 1)
  have hlength : i + (quoted arg).length = i + 1 + (escaped arg).length + 1 := by
    simp [quoted]
    omega
  rw [List.nil_append] at hinside
  rw [hlength, quoted, readAll_cons, readAll_append]
  exact hinside.close _

theorem Behind.push_eq (h : Behind tokens current i s) :
    s.push i = { s with tokens := tokens ++ [current], current := [] } := by
  rw [push, if_pos (.inr h.closed), h.tokens, h.current]

theorem Behind.outside (h : Behind tokens current i s) : Outside i s := by
  refine ⟨h.escaping, h.quoting, fun j hj => ?_⟩
  have hclosed := h.closed
  rw [hj] at hclosed
  have hsucc : j + 1 = i := Option.some.inj hclosed
  omega

theorem behind_quoted (arg : Arg) : Behind [] arg (quoted arg).length (start.readAll (quoted arg) 0) := by
  have hbehind := start_between.readAll_quoted arg
  rwa [Nat.zero_add] at hbehind

end ShellSplit

theorem shellSplit_quoted (arg : Arg) : shellSplit (quoted arg) = [arg] := by
  rw [shellSplit_eq, (ShellSplit.behind_quoted arg).push_eq]
  rfl

-- The split gives the arguments back that a line quotes.
theorem shellSplit_quotedLine {args : List Arg} {line : List Char} (h : QuotedLine args line) :
    shellSplit line = args := by
  induction h with
  | nil => rfl
  | single arg => exact shellSplit_quoted arg
  | cons arg hne hspace _ ih =>
      rw [shellSplit_append (ShellSplit.behind_quoted arg).outside hne hspace, shellSplit_quoted, ih]
      rfl

-- Arguments with a quote and a backslash, one of which is empty.
theorem shellSplit_quotedLine_sample :
    shellSplit (quoted "it's".toList ++ ("  ".toList ++ (quoted [] ++ ("\t".toList ++ quoted "a\\ b".toList)))) =
      ["it's".toList, [], "a\\ b".toList] :=
  shellSplit_quotedLine (.cons _ (by decide) (by simp [isWhitespace])
    (.cons _ (by decide) (by simp [isWhitespace]) (.single _)))

end ToInet.Byedpi
