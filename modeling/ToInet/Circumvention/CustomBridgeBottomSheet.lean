import ToInet.Lib.Regex
import ToInet.Circumvention.Bridge.Pieces

-- The dialog for custom bridges: the lines that it lets pass, and what its pattern captures of them.
namespace ToInet.Circumvention.CustomBridgeBottomSheet

open ToInet.Lib ToInet.Util

-- \d, \s and \w, which on Android go beyond ASCII.
structure Classes where
  digit : Char → Bool
  space : Char → Bool
  word : Char → Bool
  digit_ascii : ∀ c, c.toNat < 128 → digit c = c.isDigit
  isWhitespace_of_digit : ∀ c, digit c = true → Prefs.isWhitespace c = false
  space_of_digit : ∀ c, digit c = true → space c = false
  space_ascii : ∀ c, c.toNat < 128 → space c = true → Prefs.isWhitespace c = true

-- The classes as they are without Unicode.
def ascii : Classes where
  digit := Char.isDigit
  space c := c ∈ [' ', '\t', '\n', '\x0b', '\x0c', '\r']
  word c := c.isAlphanum || c = '_'
  digit_ascii _ _ := rfl
  isWhitespace_of_digit _ hc := Prefs.isWhitespace_of_isDigit hc
  space_of_digit c hc := by
    have hrange := toNat_of_isDigit hc
    refine decide_eq_false fun hmem => ?_
    have hlow : ∀ c ∈ [' ', '\t', '\n', '\x0b', '\x0c', '\r'], c.toNat < 48 := forall_mem_of_all (by decide)
    have hlt := hlow c hmem
    omega
  space_ascii c _ hc := by
    have hall : ∀ c ∈ [' ', '\t', '\n', '\x0b', '\x0c', '\r'], Prefs.isWhitespace c = true :=
      forall_mem_of_all (by decide)
    exact hall c (of_decide_eq_true hc)

variable (classes : Classes)

-- [\da-fA-F]
def isHex (c : Char) : Bool := classes.digit c ∨ 'a' ≤ c ∧ c ≤ 'f' ∨ 'A' ≤ c ∧ c ≤ 'F'

-- [ \t\f\w\-/+:=.,]
def isArgument (c : Char) : Bool := classes.word c ∨ c ∈ [' ', '\t', '\x0c', '-', '/', '+', ':', '=', '.', ',']

def bridgeType : Regex Char :=
  .alt (.text "meek_lite".toList) (.alt (.text "obfs4".toList) (.alt (.text "webtunnel".toList)
    (.alt (.text "snowflake".toList) (.text "dnstt".toList))))

-- \d{1,3}\.\d{1,3}\.\d{1,3}\.\d{1,3}
def ipv4 : Regex Char :=
  let byte := .rep classes.digit 1 (some 3)
  .seq byte (.seq (.text ['.']) (.seq byte (.seq (.text ['.']) (.seq byte (.seq (.text ['.']) byte)))))

-- \[[\da-fA-F:]+]
def ipv6 : Regex Char :=
  .seq (.text ['[']) (.seq (.rep (fun c => isHex classes c || c = ':') 1 none) (.text [']']))

-- Optional bridge type
def typePart : Regex Char := .opt (.group 1 (.seq (.group 2 bridgeType) (.rep classes.space 1 none)))

-- Address and optional port number
def addressPart : Regex Char :=
  .group 3 (.seq (.group 4 (.alt (ipv4 classes) (ipv6 classes)))
    (.opt (.group 5 (.seq (.text [':']) (.rep classes.digit 1 (some 5))))))

-- Optional bridge fingerprint, optional bridge arguments
def trailingPart : Regex Char :=
  .seq (.opt (.group 6 (.rep (isHex classes) 40 (some 40)))) (.rep (isArgument classes) 0 none)

-- matches() takes the whole line, so that ^ and $ say nothing more.
def validBridgeRegex : Regex Char :=
  .seq (typePart classes) (.seq (addressPart classes) (.seq (.rep classes.space 1 none) (trailingPart classes)))

def isValidBridge (input : List Char) : Bool :=
  ((lines '\r' '\n' input).filter fun line => line ≠ [] ∧ !isBlank line).all fun line =>
    ((validBridgeRegex classes).fullMatch line).isSome

-- What the pattern makes of a line. The port has its colon.
structure Captured where
  transport : Option (List Char)
  address : List Char
  port : Option (List Char)
  fingerprint : Option (List Char)

def capturedBy (groups : Regex.Groups Char) : Captured :=
  { transport := groups.lookup 2, address := (groups.lookup 3).getD [], port := groups.lookup 5
    fingerprint := groups.lookup 6 }

def captures (line : List Char) : Option Captured := ((validBridgeRegex classes).fullMatch line).map capturedBy

def bridgeTypes : List (List Char) :=
  ["meek_lite".toList, "obfs4".toList, "webtunnel".toList, "snowflake".toList, "dnstt".toList]

-- Neither trim nor \s takes it.
def Solid (c : Char) : Prop := Prefs.isWhitespace c = false ∧ classes.space c = false

-- A line in parts: what stands in front of the address, the space behind it and the rest.
structure Parted (captured : Captured) (line front gap rest : List Char) : Prop where
  line_eq : line = front ++ (captured.address ++ (gap ++ rest))
  front_eq : captured.transport = none ∧ front = [] ∨
    ∃ name ∈ bridgeTypes, ∃ blank, captured.transport = some name ∧ front = name ++ blank ∧ blank ≠ [] ∧
      ∀ c ∈ blank, classes.space c = true
  address : captured.address ≠ [] ∧ ∀ c ∈ captured.address, Solid classes c
  port : ∀ port ∈ captured.port, ∃ host digits, captured.address = host ++ ':' :: digits ∧ port = ':' :: digits ∧
    digits ≠ [] ∧ digits.length ≤ 5 ∧ ∀ c ∈ digits, classes.digit c = true
  gap : gap ≠ [] ∧ ∀ c ∈ gap, classes.space c = true
  fingerprint : captured.fingerprint = none → ∀ text more, rest = text ++ more → text.length = 40 →
    ¬∀ c ∈ text, isHex classes c = true

variable {classes} {line input : List Char} {groups before after : Regex.Groups Char} {captured : Captured}

theorem reads_bridgeType {run : List Char} (h : bridgeType.Reads run before after) :
    run ∈ bridgeTypes ∧ after = before := by
  obtain h | h | h | h | h := h
  all_goals
    obtain ⟨rfl, rfl⟩ := h
    exact ⟨by decide, rfl⟩

theorem name_of_mem {name : List Char} (h : name ∈ bridgeTypes) :
    name ≠ [] ∧ ∀ c ∈ name, Prefs.isWhitespace c = false := by
  have hall : bridgeTypes.all (fun name => !name.isEmpty && name.all fun c => !Prefs.isWhitespace c) = true := by decide
  have hname := List.all_eq_true.mp hall name h
  rw [Bool.and_eq_true, List.all_eq_true] at hname
  refine ⟨fun hnil => ?_, fun c hc => by simpa using hname.2 c hc⟩
  rw [hnil] at hname
  cases hname.1

theorem solid_of_ascii {c : Char} (hascii : c.toNat < 128) (hc : Prefs.isWhitespace c = false) : Solid classes c := by
  refine ⟨hc, ?_⟩
  rw [← Bool.not_eq_true]
  intro hspace
  rw [classes.space_ascii c hascii hspace] at hc
  cases hc

theorem solid_of_digit {c : Char} (hc : classes.digit c = true) : Solid classes c :=
  ⟨classes.isWhitespace_of_digit c hc, classes.space_of_digit c hc⟩

theorem solid_of_isHex {c : Char} (h : isHex classes c = true) : Solid classes c := by
  rw [isHex, decide_eq_true_eq] at h
  obtain hdigit | hletter := h
  · exact solid_of_digit hdigit
  · have hrange : 0x41 ≤ c.toNat ∧ c.toNat ≤ 0x66 := by
      simp only [Char.le_def, UInt32.le_iff_toNat_le] at hletter
      simp only [Char.toNat]
      have ha : 'a'.val.toNat = 0x61 := rfl
      have hf : 'f'.val.toNat = 0x66 := rfl
      have hA : 'A'.val.toNat = 0x41 := rfl
      have hF : 'F'.val.toNat = 0x46 := rfl
      omega
    exact solid_of_ascii (by omega) (Prefs.isWhitespace_of_le (by omega) (by omega))

theorem within_host : (Regex.alt (ipv4 classes) (ipv6 classes)).Within (Solid classes) := by
  have hdigit : ∀ c, classes.digit c = true → Solid classes c := fun _ => solid_of_digit
  have htext : ∀ chars : List Char, chars.all (fun c => c.toNat < 128 && !Prefs.isWhitespace c) = true →
      ∀ c ∈ chars, Solid classes c := by
    intro chars hall c hc
    obtain ⟨hascii, hsolid⟩ := (Bool.and_eq_true _ _).mp (List.all_eq_true.mp hall c hc)
    exact solid_of_ascii (of_decide_eq_true hascii) (by simpa using hsolid)
  have hhex : ∀ c, (isHex classes c || decide (c = ':')) = true → Solid classes c := by
    intro c hc
    obtain hc | hc := (Bool.or_eq_true _ _).mp hc
    · exact solid_of_isHex hc
    · rw [of_decide_eq_true hc]
      exact solid_of_ascii (by decide) (by decide)
  exact ⟨⟨hdigit, htext _ (by decide), hdigit, htext _ (by decide), hdigit, htext _ (by decide), hdigit⟩,
    htext _ (by decide), hhex, htext _ (by decide)⟩

theorem reads_host {run : List Char} (h : (Regex.alt (ipv4 classes) (ipv6 classes)).Reads run before after) :
    after = before ∧ run ≠ [] ∧ ∀ c ∈ run, Solid classes c := by
  refine ⟨Regex.Reads.groups_eq (by simp [Regex.Groupless, ipv4, ipv6]) h, ?_, Regex.Reads.forall_mem within_host h⟩
  have hlength : 3 ≤ run.length := Regex.Reads.shortest_le h
  rintro rfl
  exact absurd hlength (by decide)

theorem reads_typePart {run : List Char}
    (h : (typePart classes).Reads run [] after) :
    (after.lookup 2 = none ∧ run = [] ∨ ∃ name ∈ bridgeTypes, ∃ blank, after.lookup 2 = some name ∧
      run = name ++ blank ∧ blank ≠ [] ∧ ∀ c ∈ blank, classes.space c = true) ∧
      ∀ number ∈ [3, 5, 6], after.lookup number = none := by
  obtain ⟨_, ⟨name, blank, _, rfl, ⟨_, htype, rfl⟩, hblank, hlength, _, rfl⟩, rfl⟩ | ⟨rfl, rfl⟩ := h
  · obtain ⟨hname, rfl⟩ := reads_bridgeType htype
    refine ⟨.inr ⟨name, hname, blank, rfl, rfl, List.ne_nil_of_length_pos hlength, hblank⟩, ?_⟩
    exact forall_mem_of_all rfl
  · exact ⟨.inl ⟨rfl, rfl⟩, fun _ _ => rfl⟩

theorem reads_addressPart {run : List Char}
    (h : (addressPart classes).Reads run before after) :
    ∃ host, (∃ between, after = (3, run) :: between ∧
      (between = (4, host) :: before ∧ run = host ∨ ∃ digits, between = (5, ':' :: digits) :: (4, host) :: before ∧
        run = host ++ ':' :: digits ∧ digits ≠ [] ∧ digits.length ≤ 5 ∧ ∀ c ∈ digits, classes.digit c = true)) ∧
      host ≠ [] ∧ ∀ c ∈ host, Solid classes c := by
  obtain ⟨_, ⟨host, port, _, rfl, ⟨_, hhost, rfl⟩, hport⟩, rfl⟩ := h
  obtain ⟨rfl, hne, hchars⟩ := reads_host hhost
  refine ⟨host, ⟨_, rfl, ?_⟩, hne, hchars⟩
  obtain ⟨_, ⟨colon, digits, _, rfl, ⟨rfl, rfl⟩, hdigits, hleast, hmost, rfl⟩, rfl⟩ | ⟨rfl, rfl⟩ := hport
  · exact .inr ⟨digits, rfl, rfl, List.ne_nil_of_length_pos hleast, hmost 5 rfl, hdigits⟩
  · exact .inl ⟨rfl, List.append_nil host⟩

-- The fingerprint is captured wherever forty digits stand behind the space: what follows it matches as well.
theorem exec_trailingPart {rest : List Char} (h : (trailingPart classes).exec Regex.atEnd rest before = some groups) :
    (∃ text, groups = (6, text) :: before) ∨ groups = before ∧
      ∀ text more, rest = text ++ more → text.length = 40 → ¬∀ c ∈ text, isHex classes c = true := by
  have hend : ∀ {rest : List Char} {before : Regex.Groups Char},
      (Regex.rep (isArgument classes) 0 none).exec Regex.atEnd rest before = some groups →
        groups = before ∧ ∀ c ∈ rest, isArgument classes c = true := by
    intro rest before h
    obtain ⟨run, last, rfl, hrun, _, _, hlast⟩ := Regex.takeRep_eq_some h
    obtain ⟨rfl, rfl⟩ := Regex.atEnd_eq_some hlast
    rw [List.append_nil]
    exact ⟨rfl, hrun⟩
  obtain hfirst | ⟨hnone, hsecond⟩ := Option.or_eq_some_iff.mp h
  · obtain ⟨run, more, _, rfl, ⟨_, ⟨_, _, _, rfl⟩, rfl⟩, hmore⟩ := Regex.exec_eq_some hfirst
    exact .inl ⟨run, (hend hmore).1⟩
  · obtain ⟨hgroups, hrest⟩ := hend hsecond
    refine .inr ⟨hgroups, ?_⟩
    rintro text more rfl hlength hhex
    rw [Regex.exec, Regex.exec, ← hlength, Regex.takeRep_exact _ hhex] at hnone
    have hall : ∀ groups, (Regex.rep (isArgument classes) 0 none).exec Regex.atEnd more groups = some groups :=
      fun groups => Regex.takeRep_all (fun c hc => hrest c (List.mem_append_right text hc)) rfl
    cases hnone.symm.trans (hall _)

theorem exists_parted (h : captures classes line = some captured) :
    ∃ front gap rest, Parted classes captured line front gap rest := by
  obtain ⟨groups, hmatch, rfl⟩ := Option.map_eq_some_iff.mp h
  rw [Regex.fullMatch, validBridgeRegex, Regex.exec_seq] at hmatch
  obtain ⟨front, _, first, rfl, hfront, hbehind⟩ := Regex.exec_eq_some hmatch
  rw [Regex.exec_seq] at hbehind
  obtain ⟨address, _, _, rfl, haddress, hgap⟩ := Regex.exec_eq_some hbehind
  obtain ⟨host, ⟨between, rfl, hport⟩, hne, hhost⟩ := reads_addressPart haddress
  rw [Regex.exec_seq] at hgap
  obtain ⟨gap, rest, _, rfl, ⟨hspace, hlength, _, rfl⟩, hrest⟩ := Regex.exec_eq_some hgap
  obtain ⟨hfront, hothers⟩ := reads_typePart hfront
  have hlast := exec_trailingPart hrest
  have hgroups : capturedBy groups =
      { transport := first.lookup 2, address, port := between.lookup 5, fingerprint := groups.lookup 6 } := by
    obtain ⟨rfl, _⟩ | ⟨digits, rfl, _⟩ := hport
    · obtain ⟨text, rfl⟩ | ⟨rfl, _⟩ := hlast
      · rfl
      · rfl
    · obtain ⟨text, rfl⟩ | ⟨rfl, _⟩ := hlast
      · rfl
      · rfl
  rw [hgroups]
  refine ⟨front, gap, rest, rfl, hfront, ?_, ?_, ⟨List.ne_nil_of_length_pos hlength, hspace⟩, ?_⟩
  · obtain ⟨_, rfl⟩ | ⟨digits, _, rfl, _, _, hdigits⟩ := hport
    · exact ⟨hne, hhost⟩
    · refine ⟨List.append_ne_nil_of_left_ne_nil hne _, List.forall_mem_append.mpr ⟨hhost, ?_⟩⟩
      exact List.forall_mem_cons.mpr ⟨solid_of_ascii (by decide) (by decide), fun c hc => solid_of_digit (hdigits c hc)⟩
  · intro port hsome
    obtain ⟨rfl, _⟩ | ⟨digits, rfl, rfl, hdigits⟩ := hport
    · have hnone : List.lookup 5 ((4, host) :: first) = none := hothers 5 (by decide)
      exact absurd (hsome.symm.trans hnone) nofun
    · obtain rfl := Option.some.inj (Option.mem_def.mp hsome)
      exact ⟨host, digits, rfl, rfl, hdigits⟩
  · intro hnone
    obtain ⟨text, rfl⟩ | ⟨_, hnot⟩ := hlast
    · cases hnone
    · exact hnot

end ToInet.Circumvention.CustomBridgeBottomSheet
