import ToInet.Byedpi.ByeDpiRouter.ExtractDomain

-- What extractDomain makes of the beginning of what it could have read.
namespace ToInet.Byedpi.ByeDpiRouter

open ToInet.Lib

variable {texts : Texts} {firstChunk other : Bytes} {n m : Nat}

theorem byte_congr (h : firstChunk.take n = other.take n) {i : Nat} (hi : i < n) :
    byte firstChunk i = byte other i := by
  have hget : (firstChunk.take n)[i]? = (other.take n)[i]? := by rw [h]
  rw [List.getElem?_take_of_lt hi, List.getElem?_take_of_lt hi] at hget
  rw [byte, byte, List.getD_eq_getElem?_getD, List.getD_eq_getElem?_getD, hget]

theorem word_congr (h : firstChunk.take n = other.take n) {i : Nat} (hi : i + 2 ≤ n) :
    word firstChunk i = word other i := by
  rw [word, word, byte_congr h (by omega), byte_congr h (by omega)]

theorem slice_congr (h : firstChunk.take n = other.take n) {i size : Nat} (hi : i + size ≤ n) :
    (firstChunk.drop i).take size = (other.drop i).take size := by
  have hpart (chunk : Bytes) : (chunk.drop i).take size = ((chunk.take n).drop i).take size := by
    rw [List.drop_take, List.take_take, Nat.min_eq_left (by omega)]
  rw [hpart firstChunk, hpart other, h]

theorem extensionsIn_congr (h : firstChunk.take n = other.take n) :
    extensionsIn firstChunk n = extensionsIn other n := by
  unfold extensionsIn
  dsimp only
  split
  · rfl
  rename_i hsession
  rw [byte_congr h (show 43 < n by omega)]
  split
  · rfl
  rename_i hsuites
  rw [word_congr h (show 43 + (1 + byte other 43) + 2 ≤ n by omega)]
  split
  · rfl
  rename_i hmethods
  rw [byte_congr h (by omega)]
  split
  · rfl
  rename_i hlength
  rw [word_congr h (by omega)]

theorem serverName_congr (h : firstChunk.take n = other.take n) {endOffset : Nat} (hend : endOffset ≤ n)
    (offset extLen : Nat) :
    serverName firstChunk endOffset offset extLen = serverName other endOffset offset extLen := by
  unfold serverName
  dsimp only
  split
  · split
    · rw [byte_congr h (by omega)]
      split
      · split
        · rw [word_congr h (by omega)]
          split
          · rw [slice_congr h (by omega)]
          · rfl
        · rfl
      · rfl
    · rfl
  · rfl

theorem findServerName_congr (h : firstChunk.take n = other.take n) {endOffset : Nat} (hend : endOffset ≤ n)
    (fuel offset : Nat) :
    findServerName firstChunk endOffset fuel offset = findServerName other endOffset fuel offset := by
  induction fuel generalizing offset with
  | zero => rfl
  | succ fuel ih =>
      rw [findServerName, findServerName]
      split
      · rw [word_congr h (show offset + 2 ≤ n by omega), word_congr h (show offset + 2 + 2 ≤ n by omega)]
        simp only [serverName_congr h hend, ih]
      · rfl

theorem extensionsIn_end {offset endOffset : Nat} (h : extensionsIn firstChunk n = some (offset, endOffset)) :
    endOffset = min (offset + word firstChunk (offset - 2)) n ∧ 2 ≤ offset ∧ offset ≤ n := by
  unfold extensionsIn at h
  dsimp only at h
  repeat' split at h
  all_goals cases h
  exact ⟨rfl, by omega, by omega⟩

-- No byte behind those that have been read is looked at.
theorem extractDomain_congr (h : firstChunk.take n = other.take n) :
    extractDomain texts firstChunk n = extractDomain texts other n := by
  unfold extractDomain
  split
  · rfl
  rename_i hlength
  have hmethod : firstChunk.take (min 8 n) = other.take (min 8 n) := by
    have hmin := congrArg (List.take (min 8 n)) h
    rwa [List.take_take, List.take_take, Nat.min_eq_left (Nat.min_le_right 8 n)] at hmin
  have htls : isTls firstChunk = isTls other := by
    unfold isTls
    rw [byte_congr h (show 0 < n by omega), byte_congr h (show 1 < n by omega), byte_congr h (show 5 < n by omega)]
  have hname : tlsServerName firstChunk n = tlsServerName other n := by
    unfold tlsServerName
    rw [extensionsIn_congr h]
    cases hin : extensionsIn other n with
    | none => rfl
    | some found =>
        obtain ⟨hend, _⟩ := extensionsIn_end hin
        exact findServerName_congr h (hend ▸ Nat.min_le_right _ _) _ _
  rw [isHttp, isHttp, hmethod, h, htls, hname]

-- The name that an extension of type 0 has within the bounds.
theorem serverName_eq_some {endOffset offset extLen : Nat} {name : Bytes} :
    serverName firstChunk endOffset offset extLen = some name ↔
      offset + extLen ≤ endOffset ∧ byte firstChunk (offset + 2) = 0 ∧
        offset + 5 + word firstChunk (offset + 3) ≤ endOffset ∧
        name = (firstChunk.drop (offset + 5)).take (word firstChunk (offset + 3)) := by
  unfold serverName
  dsimp only
  constructor
  · intro h
    repeat' split at h
    all_goals cases h
    exact ⟨by assumption, by assumption, by omega, rfl⟩
  · rintro ⟨hext, htype, hend, rfl⟩
    rw [if_pos hext, if_pos (by omega), if_pos htype, if_pos (by omega), if_pos hend]

def entryName (firstChunk : Bytes) (endOffset offset : Nat) : Option Bytes :=
  if word firstChunk offset = 0 then
    serverName firstChunk endOffset (offset + 4) (word firstChunk (offset + 2))
  else none

theorem findServerName_succ (firstChunk : Bytes) (endOffset fuel offset : Nat) :
    findServerName firstChunk endOffset (fuel + 1) offset =
      if offset + 4 ≤ endOffset then
        (entryName firstChunk endOffset offset).or
          (findServerName firstChunk endOffset fuel (offset + 4 + word firstChunk (offset + 2)))
      else none := by
  rw [findServerName, entryName]
  split
  · dsimp only
    split <;> rename_i h <;> rw [h] <;> rfl
  · rfl

-- Where the walk comes by before it finds a name.
def passed (firstChunk : Bytes) (endOffset : Nat) : Nat → Nat → List Nat
  | 0, _ => []
  | fuel + 1, offset =>
      if offset + 4 ≤ endOffset then
        match entryName firstChunk endOffset offset with
        | some _ => []
        | none => offset :: passed firstChunk endOffset fuel (offset + 4 + word firstChunk (offset + 2))
      else []

-- An entry for a host name that goes on behind the end of a shorter read, but not of a longer one.
def CutName (firstChunk : Bytes) (endOffset laterEnd offset : Nat) : Prop :=
  word firstChunk offset = 0 ∧ byte firstChunk (offset + 6) = 0 ∧
    endOffset < offset + 9 + word firstChunk (offset + 7) ∧ offset + 9 + word firstChunk (offset + 7) ≤ laterEnd

theorem findServerName_eq_some {endOffset fuel offset : Nat} {name : Bytes}
    (h : findServerName firstChunk endOffset fuel offset = some name) :
    ∃ start, offset ≤ start ∧ byte firstChunk (start + 6) = 0 ∧
      start + 9 + word firstChunk (start + 7) ≤ endOffset ∧
      name = (firstChunk.drop (start + 9)).take (word firstChunk (start + 7)) := by
  induction fuel generalizing offset with
  | zero => cases h
  | succ fuel ih =>
      rw [findServerName_succ] at h
      split at h
      · obtain hentry | ⟨_, hlater⟩ := Option.or_eq_some_iff.mp h
        · unfold entryName at hentry
          split at hentry
          · obtain ⟨_, htype, hend, hname⟩ := serverName_eq_some.mp hentry
            exact ⟨offset, Nat.le_refl _, htype, hend, hname⟩
          · cases hentry
        · obtain ⟨start, hstart, hrest⟩ := ih hlater
          exact ⟨start, by omega, hrest⟩
      · cases h

-- An entry that a walk to a name passes ends in front of the entry with the name, and so it is only
-- the end of its own name that can be missing.
theorem entryName_later {endOffset laterEnd offset start : Nat} (hpassed : entryName firstChunk endOffset offset = none)
    (hstart : offset + 4 + word firstChunk (offset + 2) ≤ start) (hend : start + 9 ≤ endOffset)
    (hle : endOffset ≤ laterEnd) :
    (CutName firstChunk endOffset laterEnd offset → entryName firstChunk laterEnd offset =
        some ((firstChunk.drop (offset + 9)).take (word firstChunk (offset + 7)))) ∧
      (¬CutName firstChunk endOffset laterEnd offset → entryName firstChunk laterEnd offset = none) := by
  unfold entryName at hpassed ⊢
  constructor
  · rintro ⟨hzero, htype, _, hlater⟩
    rw [if_pos hzero]
    exact serverName_eq_some.mpr ⟨by omega, htype, hlater, rfl⟩
  · intro hnot
    split
    · rename_i hzero
      rw [if_pos hzero] at hpassed
      rw [Option.eq_none_iff_forall_ne_some] at hpassed ⊢
      intro name hname
      obtain ⟨_, htype, hlater, _⟩ := serverName_eq_some.mp hname
      refine hpassed _ (serverName_eq_some.mpr ⟨by omega, htype, ?_, rfl⟩)
      show offset + 9 + word firstChunk (offset + 7) ≤ endOffset
      by_contra hgt
      exact hnot ⟨hzero, htype, by omega, hlater⟩
    · rfl

theorem slice_sublist (bytes : Bytes) {start len offset size : Nat} (hstart : offset ≤ start)
    (hend : start + len ≤ offset + size) : ((bytes.drop start).take len).Sublist ((bytes.drop offset).take size) := by
  have hpart : (bytes.drop start).take len = (((bytes.drop offset).take size).drop (start - offset)).take len := by
    rw [List.drop_take, List.drop_drop, List.take_take, show offset + (start - offset) = start by omega,
      Nat.min_eq_left (by omega)]
  rw [hpart]
  exact (List.take_sublist _ _).trans (List.drop_sublist _ _)

-- A part of the bytes with a zero in front of the other part has more zeros.
theorem count_slice_lt {start len offset size mark : Nat} (hoffset : offset ≤ mark) (hmark : mark < start)
    (hend : start + len ≤ offset + size) (hlength : mark < firstChunk.length) (hbyte : byte firstChunk mark = 0) :
    ((firstChunk.drop start).take len).count 0 < ((firstChunk.drop offset).take size).count 0 := by
  have hget : firstChunk[mark] = 0 := by
    rw [byte, List.getD_eq_getElem?_getD, List.getElem?_eq_getElem hlength] at hbyte
    exact UInt8.toNat_inj.mp hbyte
  have hcons : (firstChunk.drop mark).take (offset + size - mark) =
      0 :: (firstChunk.drop (mark + 1)).take (offset + size - mark - 1) := by
    obtain ⟨k, hk⟩ : ∃ k, offset + size - mark = k + 1 := ⟨offset + size - mark - 1, by omega⟩
    rw [List.drop_eq_getElem_cons hlength, hget, hk, List.take_succ_cons, Nat.add_sub_cancel]
  have hinner := (slice_sublist firstChunk (show mark + 1 ≤ start by omega)
    (show start + len ≤ mark + 1 + (offset + size - mark - 1) by omega)).count_le (0 : UInt8)
  have houter := (slice_sublist firstChunk hoffset
    (show mark + (offset + size - mark) ≤ offset + size by omega)).count_le (0 : UInt8)
  rw [hcons, List.count_cons_self] at houter
  omega

-- A longer read finds the name that a shorter one has found, or a name that was cut before.
theorem findServerName_later {endOffset laterEnd fuel more offset : Nat} {name : Bytes} (hle : endOffset ≤ laterEnd)
    (hlength : endOffset ≤ firstChunk.length)
    (hfuel : fuel ≤ more) (h : findServerName firstChunk endOffset fuel offset = some name) :
    ((∀ start ∈ passed firstChunk endOffset fuel offset, ¬CutName firstChunk endOffset laterEnd start) ∧
        findServerName firstChunk laterEnd more offset = some name) ∨
      (∃ start ∈ passed firstChunk endOffset fuel offset, CutName firstChunk endOffset laterEnd start) ∧
        ∃ longer, findServerName firstChunk laterEnd more offset = some longer ∧ name.count 0 < longer.count 0 := by
  induction fuel generalizing more offset with
  | zero => cases h
  | succ fuel ih =>
      obtain ⟨more, rfl⟩ : ∃ k, more = k + 1 := ⟨more - 1, by omega⟩
      rw [findServerName_succ] at h
      split at h
      · rename_i hend
        rw [passed, if_pos hend, findServerName_succ, if_pos (by omega)]
        obtain hentry | ⟨hentry, hrest⟩ := Option.or_eq_some_iff.mp h
        · rw [hentry]
          have hlater : entryName firstChunk laterEnd offset = some name := by
            unfold entryName at hentry ⊢
            split at hentry
            · rename_i hzero
              obtain ⟨hext, htype, hname, rfl⟩ := serverName_eq_some.mp hentry
              rw [if_pos hzero]
              exact serverName_eq_some.mpr ⟨by omega, htype, by omega, rfl⟩
            · cases hentry
          rw [hlater]
          exact .inl ⟨nofun, rfl⟩
        · rw [hentry]
          obtain ⟨start, hstart, htype, hnameEnd, hname⟩ := findServerName_eq_some hrest
          obtain ⟨hcut, hwhole⟩ := entryName_later hentry hstart (by omega) hle
          by_cases hcutName : CutName firstChunk endOffset laterEnd offset
          · refine .inr ⟨⟨offset, List.mem_cons_self, hcutName⟩, _, by rw [hcut hcutName, Option.some_or], ?_⟩
            obtain ⟨_, _, hbehind, _⟩ := hcutName
            rw [hname]
            exact count_slice_lt (show offset + 9 ≤ start + 6 by omega) (by omega) (by omega) (by omega) htype
          · rw [hwhole hcutName, Option.none_or]
            obtain ⟨hnone, hsame⟩ | ⟨⟨cut, hmem, hlater⟩, hlonger⟩ := ih (show fuel ≤ more by omega) hrest
            · refine .inl ⟨fun cut hmem => ?_, hsame⟩
              obtain rfl | hmem := List.mem_cons.mp hmem
              · exact hcutName
              · exact hnone cut hmem
            · exact .inr ⟨⟨cut, List.mem_cons_of_mem _ hmem, hlater⟩, hlonger⟩
      · cases h

theorem startsWithHost_iff {line : List Char} :
    startsWithHost texts line = true ↔
      ∃ name value, line = name ++ ' ' :: value ∧ name.map texts.fold = "Host:".toList.map texts.fold ∧ ' ' ∉ name := by
  rw [startsWithHost, List.isPrefixOf_iff_prefix]
  constructor
  · rintro ⟨rest, hrest⟩
    obtain ⟨start, value, rfl, hstart, _⟩ := List.map_eq_append_iff.mp hrest.symm
    obtain ⟨name, last, rfl, hname, hlast⟩ := List.map_eq_append_iff.mp
      (show start.map texts.fold = "Host:".toList.map texts.fold ++ [texts.fold ' '] from hstart)
    obtain ⟨c, rfl, hc⟩ := List.map_eq_singleton_iff.mp hlast
    obtain rfl := texts.fold_space c hc
    refine ⟨name, value, by simp, hname, fun hmem => ?_⟩
    have hfold := List.mem_map_of_mem (f := texts.fold) hmem
    rw [hname] at hfold
    obtain ⟨letter, hletter, hsame⟩ := List.mem_map.mp hfold
    rw [texts.fold_space letter hsame] at hletter
    exact absurd hletter (by decide)
  · rintro ⟨name, value, rfl, hname, _⟩
    refine ⟨value.map texts.fold, ?_⟩
    rw [List.map_append, hname]
    rfl

-- What stands behind the first space of a line.
def hostValue (line : Bytes) : Bytes := (line.dropWhile (· ≠ 32)).tail

theorem hostValue_append {name value : Bytes} (h : 32 ∉ name) : hostValue (name ++ 32 :: value) = value := by
  rw [hostValue, dropWhile_ne h]
  rfl

-- The first six characters of a host line end at its first space.
theorem hostLine_split {line : Bytes} (h : startsWithHost texts (texts.charset.decode line) = true) :
    (∃ name, line = name ++ 32 :: hostValue line) ∧ ∀ more,
      startsWithHost texts (texts.charset.decode (line ++ more)) = true ∧
        (texts.charset.decode (line ++ more)).drop 6 = texts.charset.decode (hostValue line ++ more) := by
  obtain ⟨start, text, hdecode, hfold, hstart⟩ := startsWithHost_iff.mp h
  have hmem : ' ' ∈ texts.charset.decode line := by
    rw [hdecode]
    simp
  obtain ⟨b, hb, _, hspace⟩ := texts.charset.exists_byte_of_mem_decode (by decide) hmem
  obtain rfl : b = 32 := asciiChar_inj hspace.symm
  obtain ⟨name, value, rfl, hname⟩ := List.eq_append_cons_of_mem hb
  have hsplit (rest : Bytes) : texts.charset.decode (name ++ 32 :: rest) =
      texts.charset.decode name ++ ' ' :: texts.charset.decode rest :=
    texts.charset.decode_ascii name 32 rest (by decide)
  have hfree : ' ' ∉ texts.charset.decode name := by
    intro hmem
    obtain ⟨b, hb, _, hspace⟩ := texts.charset.exists_byte_of_mem_decode (by decide) hmem
    obtain rfl : b = 32 := asciiChar_inj hspace.symm
    exact hname hb
  have hsame : texts.charset.decode name = start := by
    have hboth := congrArg (List.takeWhile (· ≠ ' ')) ((hsplit value).symm.trans hdecode)
    rwa [takeWhile_ne hfree, takeWhile_ne hstart] at hboth
  rw [hostValue_append hname]
  refine ⟨⟨name, rfl⟩, fun more => ?_⟩
  have hlength : start.length = 5 := by simpa using congrArg List.length hfold
  rw [List.append_assoc, List.cons_append, hsplit, hsame]
  exact ⟨startsWithHost_iff.mpr ⟨start, _, rfl, hfold, hstart⟩, by rw [List.drop_append, hlength]; simp [hlength]⟩

theorem dropWhile_colon (front back : List Char) :
    (front ++ ':' :: back).dropWhile isBlankChar = front.dropWhile isBlankChar ++ ':' :: back := by
  rw [List.dropWhile_append]
  split
  · rename_i hempty
    rw [List.isEmpty_iff.mp hempty]
    rfl
  · rfl

theorem hostOf_colon {host : List Char} (h : ':' ∉ host) (rest : List Char) :
    hostOf (host ++ ':' :: rest) = host.dropWhile isBlankChar := by
  have hhost : ':' ∉ host.dropWhile isBlankChar := fun hmem => h ((List.dropWhile_sublist _).subset hmem)
  rw [hostOf, trim, dropWhile_colon, List.rdropWhile, List.reverse_append, List.reverse_cons, List.append_assoc,
    List.singleton_append, dropWhile_colon, List.reverse_append, List.reverse_cons, List.reverse_reverse,
    List.append_assoc, List.singleton_append, takeWhile_ne hhost]

theorem hostOf_plain {value : List Char} (h : ':' ∉ value) : hostOf value = trim value := by
  refine takeWhile_ne_self fun hmem => h ?_
  have hsub := (List.rdropWhile_prefix isBlankChar (value.dropWhile isBlankChar)).subset hmem
  exact (List.dropWhile_sublist _).subset hsub

def isHostLine (texts : Texts) (line : Bytes) : Bool := startsWithHost texts (texts.charset.decode line)

theorem httpHost_decode (bytes : Bytes) :
    httpHost texts (texts.charset.decode bytes) =
      ((lines 13 10 bytes).find? (isHostLine texts)).map fun line => hostOf ((texts.charset.decode line).drop 6) := by
  rw [httpHost, lines, texts.charset.read_decode, lines]
  simp only [Lines.map]
  rw [← List.map_singleton, ← List.map_append, List.find?_map, Option.map_map]
  rfl

theorem colon_mem_decode {bytes : Bytes} : ':' ∈ texts.charset.decode bytes ↔ 58 ∈ bytes := by
  constructor
  · intro h
    obtain ⟨b, hb, _, hcolon⟩ := texts.charset.exists_byte_of_mem_decode (by decide) h
    obtain rfl : b = 58 := asciiChar_inj hcolon.symm
    exact hb
  · intro h
    obtain ⟨front, back, rfl⟩ := List.append_of_mem h
    rw [texts.charset.decode_ascii front 58 back (by decide)]
    simp [show asciiChar 58 = ':' from rfl]

-- The text of a value up to its colon, or all of it, without the white space around it. In front of
-- a colon white space stays.
def hostText (texts : Texts) (value : Bytes) : List Char :=
  let text := texts.charset.decode (value.takeWhile (· ≠ 58))
  if 58 ∈ value then text.dropWhile isBlankChar else trim text

theorem hostOf_decode (value : Bytes) : hostOf (texts.charset.decode value) = hostText texts value := by
  unfold hostText
  dsimp only
  split
  · rename_i h
    obtain ⟨host, rest, rfl, hhost⟩ := List.eq_append_cons_of_mem h
    rw [texts.charset.decode_ascii host 58 rest (by decide), show asciiChar 58 = ':' from rfl,
      hostOf_colon (mt colon_mem_decode.mp hhost), takeWhile_ne hhost]
  · rename_i h
    rw [hostOf_plain (mt colon_mem_decode.mp h), takeWhile_ne_self h]

theorem dropWhile_blank {blank rest : List Char} (h : ∀ c ∈ blank, isBlankChar c = true) :
    (blank ++ rest).dropWhile isBlankChar = rest.dropWhile isBlankChar :=
  List.dropWhile_append_of_pos h

theorem dropWhile_eq_iff {text host : List Char} (hhost : host.dropWhile isBlankChar = host) :
    text.dropWhile isBlankChar = host ↔ ∃ front, (∀ c ∈ front, isBlankChar c = true) ∧ text = front ++ host := by
  constructor
  · rintro rfl
    exact ⟨text.takeWhile isBlankChar, fun c => List.mem_takeWhile_imp, (List.takeWhile_append_dropWhile ..).symm⟩
  · rintro ⟨front, hfront, rfl⟩
    rw [dropWhile_blank hfront, hhost]

theorem rdropWhile_eq_iff {text host : List Char} (hhost : host.rdropWhile isBlankChar = host) :
    text.rdropWhile isBlankChar = host ↔ ∃ back, (∀ c ∈ back, isBlankChar c = true) ∧ text = host ++ back := by
  have hreverse : host.reverse.dropWhile isBlankChar = host.reverse := by
    conv_rhs => rw [← hhost, List.rdropWhile, List.reverse_reverse]
  rw [List.rdropWhile, List.reverse_eq_iff, dropWhile_eq_iff hreverse]
  constructor
  · rintro ⟨front, hfront, htext⟩
    refine ⟨front.reverse, fun c hc => hfront c (List.mem_reverse.mp hc), ?_⟩
    rw [← List.reverse_reverse text, htext, List.reverse_append, List.reverse_reverse]
  · rintro ⟨back, hback, rfl⟩
    exact ⟨back.reverse, fun c hc => hback c (List.mem_reverse.mp hc), List.reverse_append⟩

-- White space stands around the text that is left of another one, and nowhere else.
theorem trim_eq_iff {text host : List Char} (hfront : host.dropWhile isBlankChar = host)
    (hback : host.rdropWhile isBlankChar = host) : trim text = host ↔
      ∃ front back, (∀ c ∈ front ++ back, isBlankChar c = true) ∧ text = front ++ (host ++ back) := by
  rw [trim, rdropWhile_eq_iff hback]
  constructor
  · rintro ⟨back, hblank, htext⟩
    refine ⟨text.takeWhile isBlankChar, back, fun c hc => ?_, ?_⟩
    · rcases List.mem_append.mp hc with hc | hc
      · exact List.mem_takeWhile_imp hc
      · exact hblank c hc
    · rw [← htext, List.takeWhile_append_dropWhile]
  · rintro ⟨front, back, hblank, rfl⟩
    rw [dropWhile_blank fun c hc => hblank c (List.mem_append_left _ hc), List.dropWhile_append, hfront]
    have hrest : back.dropWhile isBlankChar = [] :=
      List.dropWhile_eq_nil_iff.mpr fun c hc => hblank c (List.mem_append_right _ hc)
    cases host with
    | nil => exact ⟨[], fun c hc => (List.not_mem_nil hc).elim, hrest⟩
    | cons => exact ⟨back, fun c hc => hblank c (List.mem_append_right _ hc), rfl⟩

theorem trim_ends (text : List Char) :
    (trim text).dropWhile isBlankChar = trim text ∧ (trim text).rdropWhile isBlankChar = trim text := by
  refine ⟨?_, List.rdropWhile_idempotent isBlankChar _⟩
  obtain ⟨more, hmore⟩ := List.rdropWhile_prefix isBlankChar (text.dropWhile isBlankChar)
  rw [trim]
  cases hrest : (text.dropWhile isBlankChar).rdropWhile isBlankChar with
  | nil => rfl
  | cons c rest =>
      have hfirst := List.head?_dropWhile_not isBlankChar text
      rw [← hmore, hrest] at hfirst
      exact List.dropWhile_cons_of_neg (Bool.eq_false_iff.mp hfirst)

-- Up to its colon, the longer value is the host of the shorter one with nothing but white space around it, and
-- nothing behind it in front of the colon.
def AddsBlank (texts : Texts) (value more : Bytes) : Prop :=
  ∃ front back, (∀ c ∈ front ++ back, isBlankChar c = true) ∧ (58 ∈ more → back = []) ∧
    texts.charset.decode ((value ++ more).takeWhile (· ≠ 58)) = front ++ (trim (texts.charset.decode value) ++ back)

theorem hostText_append_iff (value more : Bytes) :
    hostText texts (value ++ more) = hostText texts value ↔ 58 ∈ value ∨ AddsBlank texts value more := by
  by_cases hcolon : 58 ∈ value
  · refine iff_of_true ?_ (.inl hcolon)
    obtain ⟨host, rest, rfl, hhost⟩ := List.eq_append_cons_of_mem hcolon
    rw [hostText, hostText, List.append_assoc, List.cons_append, takeWhile_ne hhost, takeWhile_ne hhost]
    simp
  · obtain ⟨hfront, hback⟩ := trim_ends (texts.charset.decode value)
    rw [or_iff_right hcolon, AddsBlank, ← hostOf_decode value, hostOf_plain (mt colon_mem_decode.mp hcolon), hostText]
    by_cases hmore : 58 ∈ more
    · rw [if_pos (List.mem_append_right _ hmore), dropWhile_eq_iff hfront]
      constructor
      · rintro ⟨front, hblank, htext⟩
        exact ⟨front, [], by rwa [List.append_nil], fun _ => rfl, by rwa [List.append_nil]⟩
      · rintro ⟨front, back, hblank, hnone, htext⟩
        rw [hnone hmore, List.append_nil] at hblank htext
        exact ⟨front, hblank, htext⟩
    · rw [if_neg (List.mem_append.not.mpr (not_or.mpr ⟨hcolon, hmore⟩)), trim_eq_iff hfront hback]
      exact exists_congr fun front => exists_congr fun back => and_congr_right' (by simp [hmore])

-- What a longer read adds to the line that a shorter one leaves open.
def added (stream : Bytes) (n m : Nat) : Bytes :=
  ((stream.take m).drop n).takeWhile fun b => !decide (Lines.IsBreak 13 10 b)

-- The first host line is ended by what has been read, or its value has its colon there, or the value
-- goes on with nothing but white space around the host.
def HostSettled (texts : Texts) (stream : Bytes) (n m : Nat) : Prop :=
  let seen := Lines.read 13 10 (stream.take n)
  (∃ line ∈ seen.ended, isHostLine texts line = true) ∨ isHostLine texts seen.line = false ∨
    58 ∈ hostValue seen.line ∨ AddsBlank texts (hostValue seen.line) (added stream n m)

-- The entries that the shorter walk passes on its way to a name are those that the longer one passes.
def NameSettled (stream : Bytes) (n m : Nat) : Prop :=
  ∀ offset endOffset laterEnd, extensionsIn stream n = some (offset, endOffset) →
    extensionsIn stream m = some (offset, laterEnd) → tlsServerName stream n ≠ none →
    ∀ start ∈ passed stream endOffset endOffset offset, ¬CutName stream endOffset laterEnd start

def Settled (texts : Texts) (stream : Bytes) (n m : Nat) : Prop :=
  16 ≤ n →
    if isHttp texts stream n = true then HostSettled texts stream n m
    else isTls stream = true → NameSettled stream n m

-- The buffer behind a first read.
def firstRead (stream : Bytes) (n : Nat) : Bytes := stream.take n ++ List.replicate (16384 - n) 0

-- What is found stays what is found when more is read, and nothing but what has been read decides.
def Steady (texts : Texts) (stream : Bytes) (n m : Nat) : Prop :=
  (∀ domain, extractDomain texts (firstRead stream n) n = some domain →
      extractDomain texts (firstRead stream m) m = some domain) ∧
    ∀ firstChunk : Bytes, firstChunk.take n = stream.take n →
      extractDomain texts firstChunk n = extractDomain texts (firstRead stream n) n

variable {stream : Bytes}

theorem httpHost_settled_iff (hnm : n ≤ m) :
    (∀ host, httpHost texts (texts.charset.decode (stream.take n)) = some host →
        httpHost texts (texts.charset.decode (stream.take m)) = some host) ↔ HostSettled texts stream n m := by
  have htake : stream.take m = stream.take n ++ (stream.take m).drop n := by
    conv_lhs => rw [← List.take_append_drop n (stream.take m), List.take_take, Nat.min_eq_left hnm]
  have hread : Lines.read 13 10 (stream.take m) =
      ((stream.take m).drop n).foldl (Lines.push 13 10) (Lines.read 13 10 (stream.take n)) := by
    conv_lhs => rw [htake, Lines.read_append]
  unfold HostSettled added
  rw [httpHost_decode, httpHost_decode, lines, lines, hread]
  generalize (stream.take m).drop n = more
  have hopen : (Lines.read 13 10 (stream.take n)).line ≠ [] → (Lines.read 13 10 (stream.take n)).afterCr = false :=
    Lines.read_afterCr (stream.take n)
  generalize Lines.read 13 10 (stream.take n) = seen at hopen
  by_cases hended : ∃ line ∈ seen.ended, isHostLine texts line = true
  · obtain ⟨later, hlater⟩ := Lines.foldl_push_ended 13 10 more seen
    refine iff_of_true (fun host h => ?_) (.inl hended)
    obtain ⟨first, hfirst⟩ := Option.isSome_iff_exists.mp (List.find?_isSome.mpr hended)
    rw [List.find?_append, hfirst] at h
    rw [hlater, List.append_assoc, List.find?_append, hfirst]
    exact h
  have hnone : seen.ended.find? (isHostLine texts) = none :=
    List.find?_eq_none.mpr fun line hmem hhost => hended ⟨line, hmem, hhost⟩
  rw [List.find?_append, hnone, Option.none_or]
  cases hline : isHostLine texts seen.line with
  | false =>
      refine iff_of_true (fun host h => ?_) (.inr (.inl hline))
      rw [List.find?_singleton, hline] at h
      cases h
  | true =>
      obtain ⟨⟨name, hname⟩, hmore⟩ := hostLine_split hline
      have hne : seen.line ≠ [] := by
        rw [hname]
        simp
      obtain ⟨later, hlater⟩ := Lines.foldl_push_open 13 10 more (hopen hne)
      obtain ⟨hhost, hvalue⟩ : isHostLine texts _ = true ∧ _ :=
        hmore (more.takeWhile fun b => !decide (Lines.IsBreak 13 10 b))
      obtain ⟨_, hshort⟩ := hmore []
      rw [List.append_nil, List.append_nil] at hshort
      rw [hlater, List.find?_append, hnone, Option.none_or, List.find?_cons_of_pos hhost, List.find?_singleton, hline]
      simp only [if_true, Option.map_some, hvalue, hshort, hostOf_decode, Option.some.injEq, forall_eq']
      rw [or_iff_right hended, or_iff_right (by simp [hline])]
      exact hostText_append_iff _ _

theorem extensionsIn_later {offset endOffset : Nat} (hnm : n ≤ m)
    (h : extensionsIn stream n = some (offset, endOffset)) :
    ∃ laterEnd, endOffset ≤ laterEnd ∧ extensionsIn stream m = some (offset, laterEnd) := by
  unfold extensionsIn at h ⊢
  dsimp only at h ⊢
  repeat' split at h
  all_goals cases h
  rw [if_neg (by omega), if_neg (by omega), if_neg (by omega), if_neg (by omega)]
  exact ⟨_, by omega, rfl⟩

variable (texts) in
theorem tlsServerName_settled_iff (hnm : n ≤ m) (hn : n ≤ stream.length) :
    (∀ name, tlsServerName stream n = some name →
        (tlsServerName stream m).map texts.charset.decode = some (texts.charset.decode name)) ↔
      NameSettled stream n m := by
  unfold NameSettled tlsServerName
  cases hin : extensionsIn stream n with
  | none => exact iff_of_true nofun nofun
  | some found =>
      obtain ⟨offset, endOffset⟩ := found
      obtain ⟨laterEnd, hle, hlater⟩ := extensionsIn_later hnm hin
      obtain ⟨hend, _⟩ := extensionsIn_end hin
      simp only [hlater, Option.bind_some]
      constructor
      · rintro hsteady _ _ _ ⟨⟩ ⟨⟩ hfound start hmem hcut
        obtain ⟨name, hname⟩ := Option.ne_none_iff_exists'.mp hfound
        obtain ⟨hnone, _⟩ | ⟨_, longer, hlonger, hcount⟩ :=
          findServerName_later hle (by omega : endOffset ≤ stream.length) hle hname
        · exact hnone start hmem hcut
        · have hsame := hsteady name hname
          rw [hlonger, Option.map_some, Option.some.injEq] at hsame
          have hzeros := congrArg (List.count (asciiChar 0)) hsame
          rw [texts.charset.count_decode (by decide), texts.charset.count_decode (by decide)] at hzeros
          omega
      · intro hsettled name hname
        obtain ⟨_, hsame⟩ | ⟨⟨start, hmem, hcut⟩, _⟩ :=
          findServerName_later hle (by omega : endOffset ≤ stream.length) hle hname
        · rw [hsame]
          rfl
        · refine absurd hcut (hsettled offset endOffset laterEnd rfl rfl ?_ start hmem)
          rw [hname]
          exact nofun

theorem extractDomain_firstRead (hn : n ≤ stream.length) :
    extractDomain texts (firstRead stream n) n = extractDomain texts stream n := by
  refine extractDomain_congr ?_
  rw [firstRead, List.take_append_of_le_length (by rw [List.length_take]; omega), List.take_take, Nat.min_self]

-- A name that has been found is the name exactly if nothing of it has been cut off.
theorem steady_iff (texts : Texts) (stream : Bytes) {n m : Nat} (hnm : n ≤ m) (hm : m ≤ stream.length) :
    Steady texts stream n m ↔ Settled texts stream n m := by
  have hn : n ≤ stream.length := hnm.trans hm
  unfold Steady
  rw [extractDomain_firstRead hn, extractDomain_firstRead hm,
    and_iff_left fun firstChunk htake => extractDomain_congr htake]
  unfold Settled extractDomain
  by_cases hlength : 16 ≤ n
  swap
  · rw [if_pos (by omega)]
    exact iff_of_true nofun fun h => absurd h hlength
  have hmethod : isHttp texts stream m = isHttp texts stream n := by
    rw [isHttp, isHttp, Nat.min_eq_left (by omega), Nat.min_eq_left (by omega)]
  simp only [show ¬n < 16 by omega, show ¬m < 16 by omega, if_false, hmethod, hlength, true_implies]
  cases hhttp : isHttp texts stream n with
  | true =>
      simp only [if_true, ← httpHost_settled_iff hnm, Option.map_eq_some_iff]
      constructor
      · intro h host hhost
        obtain ⟨last, hlast, hsame⟩ := h _ ⟨host, hhost, rfl⟩
        rwa [String.ofList_inj.mp hsame] at hlast
      · rintro h _ ⟨host, hhost, rfl⟩
        exact ⟨host, h host hhost, rfl⟩
  | false =>
      simp only [Bool.false_eq_true, if_false]
      cases htls : isTls stream with
      | true =>
          simp only [if_true, true_implies, ← tlsServerName_settled_iff texts hnm hn, Option.map_eq_some_iff]
          constructor
          · intro h name hname
            obtain ⟨last, hlast, hsame⟩ := h _ ⟨name, hname, rfl⟩
            exact ⟨last, hlast, String.ofList_inj.mp hsame⟩
          · rintro h _ ⟨name, hname, rfl⟩
            obtain ⟨last, hlast, hsame⟩ := h name hname
            exact ⟨last, hlast, by rw [hsame]⟩
      | false => exact iff_of_true nofun nofun

-- Lower case gives letters only.
theorem eq_of_toLower {c d : Char} (hd : d.toNat < 97 ∨ 122 < d.toNat) (h : c.toLower = d) : c = d := by
  unfold Char.toLower at h
  split at h
  · rename_i hupper
    have hval := congrArg (fun c => c.val.toNat) h
    obtain ⟨hlow, hhigh⟩ := hupper
    rw [ge_iff_le, UInt32.le_iff_toNat_le] at hlow
    rw [UInt32.le_iff_toNat_le] at hhigh
    simp at hval hlow hhigh
    omega
  · exact h

def sampleTexts : Texts where
  charset := utf8
  fold := Char.toLower
  fold_ascii _ _ _ _ := Iff.rfl
  fold_space _ := eq_of_toLower (by decide)

-- A request for example.com.
def getRequest : Bytes := toByteArray "GET / HTTP/1.1\r\nHost: example.com\r\n\r\n"

theorem steady_getRequest : Steady sampleTexts getRequest 35 37 ↔ Settled sampleTexts getRequest 35 37 :=
  steady_iff sampleTexts getRequest (by decide) (by decide)

-- The first 26 bytes end within the name.
theorem not_steady_getRequest :
    ¬∀ (texts : Texts) (stream : Bytes) (n m : Nat), n ≤ m → m ≤ stream.length → m ≤ 16384 →
      Steady texts stream n m := by
  intro h
  obtain ⟨hsteady, _⟩ := h sampleTexts getRequest 26 37 (by decide) (by decide) (by decide)
  rw [extractDomain_firstRead (by decide), extractDomain_firstRead (by decide)] at hsteady
  have hshort : extractDomain sampleTexts getRequest 26 = some "exam" := by decide
  have hlong : extractDomain sampleTexts getRequest 37 = some "example.com" := by decide
  have hsame := hsteady _ hshort
  rw [hlong] at hsame
  exact absurd hsame (by decide)

end ToInet.Byedpi.ByeDpiRouter
