import ToInet.Byedpi.ByeDpiProxyPreferences.ShellSplit

-- The texts at whose end the splitter is outside of quotes.
namespace ToInet.Byedpi

def IsQuote (c : Char) : Prop := c = '\'' ∨ c = '"'

instance : DecidablePred IsQuote := fun c => inferInstanceAs (Decidable (c = '\'' ∨ c = '"'))

-- What two quotes enclose. A backslash hides the character behind it, but not in single quotes.
inductive Enclosed (quote : Char) : List Char → Prop where
  | nil : Enclosed quote []
  | char {c : Char} {text : List Char} (hc : c ≠ quote) (hsingle : c = '\\' → quote = '\'')
      (htext : Enclosed quote text) : Enclosed quote (c :: text)
  | escaped {text : List Char} (c : Char) (hquote : quote ≠ '\'') (htext : Enclosed quote text) :
      Enclosed quote ('\\' :: c :: text)

-- Each quote is closed, and each backslash has a character behind it.
inductive Complete : List Char → Prop where
  | nil : Complete []
  | char {c : Char} {text : List Char} (hc : IsPlain c) (htext : Complete text) : Complete (c :: text)
  | escaped {text : List Char} (c : Char) (htext : Complete text) : Complete ('\\' :: c :: text)
  | quoted {quote : Char} {enclosed text : List Char} (hquote : IsQuote quote) (henclosed : Enclosed quote enclosed)
      (htext : Complete text) : Complete (quote :: (enclosed ++ quote :: text))

variable {quote c : Char} {text : List Char}

-- What is left behind an open quote.
def ClosedBy (quote : Char) (text : List Char) : Prop :=
  ∃ enclosed rest, text = enclosed ++ quote :: rest ∧ Enclosed quote enclosed ∧ Complete rest

theorem ClosedBy.close (h : Complete text) : ClosedBy quote (quote :: text) :=
  ⟨[], text, rfl, .nil, h⟩

theorem ClosedBy.char (h : ClosedBy quote text) (hc : c ≠ quote)
    (hsingle : c = '\\' → quote = '\'') : ClosedBy quote (c :: text) := by
  obtain ⟨enclosed, rest, rfl, henclosed, hrest⟩ := h
  exact ⟨c :: enclosed, rest, rfl, .char hc hsingle henclosed, hrest⟩

theorem ClosedBy.escaped (h : ClosedBy quote text) (hquote : quote ≠ '\'') (c : Char) :
    ClosedBy quote ('\\' :: c :: text) := by
  obtain ⟨enclosed, rest, rfl, henclosed, hrest⟩ := h
  exact ⟨'\\' :: c :: enclosed, rest, rfl, .escaped c hquote henclosed, hrest⟩

theorem ClosedBy.complete (h : ClosedBy quote text) (hquote : IsQuote quote) : Complete (quote :: text) := by
  obtain ⟨enclosed, rest, rfl, henclosed, hrest⟩ := h
  exact .quoted hquote henclosed hrest

theorem IsQuote.ne_backslash (h : IsQuote c) : c ≠ '\\' := by
  obtain rfl | rfl := h <;> decide

theorem isPlain_or (c : Char) : IsPlain c ∨ c = '\\' ∨ IsQuote c := by
  unfold IsPlain IsQuote
  grind

namespace ShellSplit

variable {s : ShellSplit} {i : Nat}

-- A quote that is closed lies in front of the index.
theorem read_closed (h : ∀ j, s.lastCloseQuoteIndex = some j → j < i) (c : Char) :
    ∀ j, (s.read c i).lastCloseQuoteIndex = some j → j < i + 1 := by
  have hnext : ∀ j, s.lastCloseQuoteIndex = some j → j < i + 1 := fun j hj => Nat.lt_succ_of_lt (h j hj)
  rw [read]
  split_ifs
  · exact hnext
  · exact hnext
  · rintro j ⟨⟩
    exact Nat.lt_succ_self i
  · exact hnext
  · rw [push_lastCloseQuoteIndex]
    exact hnext
  · exact hnext

-- Behind a quote that is open, with no backslash pending.
structure Within (quote : Char) (i : Nat) (s : ShellSplit) : Prop where
  escaping : s.escaping = false
  quoting : s.quoting = true
  quoteChar : s.quoteChar = quote
  closed : ∀ j, s.lastCloseQuoteIndex = some j → j < i

theorem Outside.char (h : Outside i s) (hc : IsPlain c) : Outside (i + 1) (s.read c i) := by
  have hclosed := read_closed h.closed c
  rw [IsPlain] at hc
  by_cases hspace : isWhitespace c = true
  · rw [read_space h.escaping h.quoting hspace] at hclosed ⊢
    exact ⟨by rw [push_escaping, h.escaping], by rw [push_quoting, h.quoting], hclosed⟩
  · refine ⟨?_, ?_, hclosed⟩ <;> simp [read, h.escaping, h.quoting, hc, hspace]

theorem Outside.escaped (h : Outside i s) (c : Char) : Outside (i + 1 + 1) ((s.read '\\' i).read c (i + 1)) := by
  refine ⟨?_, ?_, read_closed (read_closed h.closed _) c⟩ <;> simp [read, h.escaping, h.quoting]

theorem Outside.open (h : Outside i s) (hquote : IsQuote quote) : Within quote (i + 1) (s.read quote i) := by
  have hne := hquote.ne_backslash
  rw [IsQuote] at hquote
  refine ⟨?_, ?_, ?_, read_closed h.closed _⟩ <;> simp [read, h.escaping, h.quoting, hquote, hne]

theorem Within.char (h : Within quote i s) (hc : c ≠ quote) (hsingle : c = '\\' → quote = '\'') :
    Within quote (i + 1) (s.read c i) := by
  have hread : ¬(c = '\\' ∧ ¬quote = '\'') := fun ⟨hc, hquote⟩ => hquote (hsingle hc)
  refine ⟨?_, ?_, ?_, read_closed h.closed _⟩ <;> simp [read, h.escaping, h.quoting, h.quoteChar, hc, hread]

theorem Within.escaped (h : Within quote i s) (hquote : quote ≠ '\'') (c : Char) :
    Within quote (i + 1 + 1) ((s.read '\\' i).read c (i + 1)) := by
  refine ⟨?_, ?_, ?_, read_closed (read_closed h.closed _) c⟩ <;>
    simp [read, h.escaping, h.quoting, h.quoteChar, hquote]

theorem Within.close (h : Within quote i s) (hquote : IsQuote quote) : Outside (i + 1) (s.read quote i) := by
  have hne := hquote.ne_backslash
  refine ⟨?_, ?_, read_closed h.closed _⟩ <;> simp [read, h.escaping, h.quoting, h.quoteChar, hne]

theorem Within.readAll (h : Within quote i s) (henclosed : Enclosed quote text) :
    Within quote (i + text.length) (s.readAll text i) := by
  induction henclosed generalizing s i with
  | nil => exact h
  | char hc hsingle _ ih =>
      rw [readAll_cons, List.length_cons, Nat.add_comm _ 1, ← Nat.add_assoc]
      exact ih (h.char hc hsingle)
  | @escaped text c hquote _ ih =>
      have hlength : i + ('\\' :: c :: text).length = i + 1 + 1 + text.length := by
        simp only [List.length_cons]
        omega
      rw [readAll_cons, readAll_cons, hlength]
      exact ih (h.escaped hquote c)

theorem Outside.readAll (h : Outside i s) (htext : Complete text) :
    Outside (i + text.length) (s.readAll text i) := by
  induction htext generalizing s i with
  | nil => exact h
  | char hc _ ih =>
      rw [readAll_cons, List.length_cons, Nat.add_comm _ 1, ← Nat.add_assoc]
      exact ih (h.char hc)
  | @escaped text c _ ih =>
      have hlength : i + ('\\' :: c :: text).length = i + 1 + 1 + text.length := by
        simp only [List.length_cons]
        omega
      rw [readAll_cons, readAll_cons, hlength]
      exact ih (h.escaped c)
  | @quoted quote enclosed text hquote henclosed _ ih =>
      have hafter := ih (((h.open hquote).readAll henclosed).close hquote)
      have hlength : i + (quote :: (enclosed ++ quote :: text)).length =
          i + 1 + enclosed.length + 1 + text.length := by
        simp only [List.length_cons, List.length_append]
        omega
      rw [readAll_cons, readAll_append, readAll_cons, hlength]
      exact hafter

theorem escaping_backslash (hescaping : s.escaping = false) (hsingle : s.quoting = true → s.quoteChar ≠ '\'') :
    (s.read '\\' i).escaping = true := by
  rw [read, if_neg (by simp [hescaping]), if_pos ⟨rfl, fun hboth => hsingle hboth.1 hboth.2⟩]

-- Where the splitter ends outside of quotes, each quote that it has met is closed. A backslash takes
-- two characters off, so the induction is on the length.
theorem complete_and_closedBy (hescaping : (s.readAll text i).escaping = false)
    (hquoting : (s.readAll text i).quoting = false) :
    (Outside i s → Complete text) ∧ ∀ quote, IsQuote quote → Within quote i s → ClosedBy quote text := by
  induction hlength : text.length using Nat.strong_induction_on generalizing text s i with
  | _ n ih =>
    cases text with
    | nil =>
        refine ⟨fun _ => .nil, fun quote _ hwithin => ?_⟩
        exact absurd (hwithin.quoting.symm.trans hquoting) (by decide)
    | cons c text =>
        rw [List.length_cons] at hlength
        have htail := ih text.length (by omega) (s := s.read c i) (i := i + 1) hescaping hquoting rfl
        have hchar : ∀ quote, IsQuote quote → Within quote i s → c ≠ quote → (c = '\\' → quote = '\'') →
            ClosedBy quote (c :: text) := fun quote hquote hwithin hne hsingle =>
          (htail.2 quote hquote (hwithin.char hne hsingle)).char hne hsingle
        obtain hc | rfl | hc := isPlain_or c
        · refine ⟨fun houtside => .char hc (htail.1 (houtside.char hc)), fun quote hquote hwithin => ?_⟩
          refine hchar quote hquote hwithin ?_ fun hbackslash => absurd hbackslash hc.1
          rintro rfl
          exact hquote.elim hc.2.1 hc.2.2
        · have hsame : ∀ quote, IsQuote quote → Within quote i s → quote = '\'' →
              ClosedBy quote ('\\' :: text) := fun quote hquote hwithin hsingle =>
            hchar quote hquote hwithin hquote.ne_backslash.symm fun _ => hsingle
          cases text with
          | nil =>
              -- The backslash is pending.
              have hread : (s.read '\\' i).escaping ≠ true := Bool.eq_false_iff.mp hescaping
              refine ⟨fun houtside => ?_, fun quote hquote hwithin => of_not_not fun hopen => ?_⟩
              · exact absurd (escaping_backslash houtside.escaping (by simp [houtside.quoting])) hread
              · refine hread (escaping_backslash hwithin.escaping fun _ hsingle => ?_)
                exact hopen (hsame quote hquote hwithin (hwithin.quoteChar.symm.trans hsingle))
          | cons d text =>
              rw [List.length_cons] at hlength
              have hpair := ih text.length (by omega) (s := (s.read '\\' i).read d (i + 1)) (i := i + 1 + 1)
                hescaping hquoting rfl
              refine ⟨fun houtside => .escaped d (hpair.1 (houtside.escaped d)), fun quote hquote hwithin => ?_⟩
              by_cases hsingle : quote = '\''
              · exact hsame quote hquote hwithin hsingle
              · exact (hpair.2 quote hquote (hwithin.escaped hsingle d)).escaped hsingle d
        · refine ⟨fun houtside => (htail.2 c hc (houtside.open hc)).complete hc, fun quote hquote hwithin => ?_⟩
          by_cases hsame : c = quote
          · subst hsame
            exact .close (htail.1 (hwithin.close hc))
          · exact hchar quote hquote hwithin hsame fun hbackslash => absurd hbackslash hc.ne_backslash

theorem start_outside : Outside 0 start := ⟨rfl, rfl, nofun⟩

theorem outside_of_complete (h : Complete text) : Outside text.length (start.readAll text 0) := by
  have houtside := start_outside.readAll h
  rwa [Nat.zero_add] at houtside

theorem complete_iff (text : List Char) :
    Complete text ↔ (start.readAll text 0).escaping = false ∧ (start.readAll text 0).quoting = false := by
  constructor
  · intro h
    exact ⟨(outside_of_complete h).escaping, (outside_of_complete h).quoting⟩
  · rintro ⟨hescaping, hquoting⟩
    exact (complete_and_closedBy hescaping hquoting).1 start_outside

end ShellSplit

end ToInet.Byedpi
