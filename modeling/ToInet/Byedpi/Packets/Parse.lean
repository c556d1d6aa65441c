import ToInet.Byedpi.Packets
import Mathlib.Data.List.DropRight
import Mathlib.Tactic.SplitIfs

-- The host of a request, as packets.c of byedpi finds it.
namespace ToInet.Byedpi.Packets

open ToInet.Lib

-- The C locale.
def isBlank (c : UInt8) : Bool := c.toNat = 32 ∨ c.toNat = 9

def isSpace (c : UInt8) : Bool := c.toNat = 32 ∨ 9 ≤ c.toNat ∧ c.toNat ≤ 13

def isDigit (c : UInt8) : Bool := 48 ≤ c.toNat ∧ c.toNat ≤ 57

def toLower (c : UInt8) : UInt8 := if 65 ≤ c.toNat ∧ c.toNat ≤ 90 then c + 32 else c

def toUpper (c : UInt8) : UInt8 := if 97 ≤ c.toNat ∧ c.toNat ≤ 122 then c - 32 else c

-- The first place of b, whose first byte is looked for as it is and the others without regard to case.
def strncasestr (b : Bytes) : Bytes → Option Nat
  | [] => none
  | c :: rest =>
      if b.head? = some c then
        if rest.length + 1 < b.length then none
        else if ((c :: rest).take b.length).map toLower = b.map toLower then some 0
        else (strncasestr b rest).map (· + 1)
      else (strncasestr b rest).map (· + 1)

def isTlsChello (buffer : Bytes) : Bool := 5 < buffer.length ∧ antohs buffer 0 = 0x1603 ∧ buffer.getD 5 0 = 1

def isTlsShello (buffer : Bytes) : Bool := 5 < buffer.length ∧ antohs buffer 0 = 0x1603 ∧ buffer.getD 5 0 = 2

-- The place of the host and its length. none is the result 0, without a host.
def parseTls (buffer : Bytes) : Option (Nat × Nat) :=
  let sniOffs := chelloExtOffset 0x00 buffer
  let len := antohs buffer (sniOffs + 7)
  if isTlsChello buffer = false ∨ sniOffs = 0 ∨ buffer.length ≤ sniOffs + 12 ∨ buffer.length < sniOffs + 9 + len then
    none
  else some (sniOffs + 9, len)

def methods : List Bytes :=
  [[72, 69, 65, 68], [71, 69, 84], [80, 79, 83, 84], [80, 85, 84], [68, 69, 76, 69, 84, 69],
   [79, 80, 84, 73, 79, 78, 83], [67, 79, 78, 78, 69, 67, 84], [84, 82, 65, 67, 69], [80, 65, 84, 67, 72]]

def isHttp (buffer : Bytes) : Bool :=
  16 ≤ buffer.length ∧ 67 ≤ buffer.getD 0 0 ∧ buffer.getD 0 0 ≤ 84 ∧ methods.any fun m => m.isPrefixOf buffer

-- "\nHost:"
def hostName : Bytes := [10, 72, 111, 115, 116, 58]

-- The length of the host at the start of a line without its last spaces. Where the last byte is a digit,
-- the host ends at the last colon.
def hostLength (line : Bytes) : Nat :=
  let upToColon := line.rdropWhile (· ≠ 58)
  if (line.getLast?.any isDigit) ∧ upToColon ≠ [] then upToColon.length - 1 else line.length

-- The place of the host and its length, which is negative where the line holds nothing but spaces. none is the
-- result 0, without a host.
def parseHttp (buffer : Bytes) : Option (Nat × Int) :=
  if isHttp buffer = false then none
  else
    match strncasestr hostName buffer with
    | none => none
    | some offs =>
        let rest := buffer.drop (offs + 6)
        let blanks := rest.takeWhile isBlank
        let value := rest.dropWhile isBlank
        match value.idxOf? 10 with
        | none => none
        | some eol =>
            let line := (rest.take (blanks.length + eol)).rdropWhile isSpace
            let host := offs + 6 + blanks.length
            if line.length ≤ blanks.length then some (host, line.length - blanks.length)
            else some (host, hostLength (line.drop blanks.length))

theorem toNat_toLower (c : UInt8) :
    (toLower c).toNat = if 65 ≤ c.toNat ∧ c.toNat ≤ 90 then c.toNat + 32 else c.toNat := by
  rw [toLower]
  split
  case isTrue h =>
    have h32 : (32 : UInt8).toNat = 32 := rfl
    rw [UInt8.toNat_add]
    omega
  case isFalse => rfl

theorem toNat_toUpper (c : UInt8) :
    (toUpper c).toNat = if 97 ≤ c.toNat ∧ c.toNat ≤ 122 then c.toNat - 32 else c.toNat := by
  rw [toUpper]
  split
  case isTrue h => exact UInt8.toNat_sub_of_le _ _ (UInt8.le_iff_toNat_le.mpr (le_trans (by decide) h.1))
  case isFalse => rfl

theorem toLower_toUpper (c : UInt8) : toLower (toUpper c) = toLower c := by
  apply UInt8.toNat_inj.mp
  rw [toNat_toLower, toNat_toLower, toNat_toUpper]
  split_ifs <;> omega

theorem isBlank_toLower (c : UInt8) : isBlank (toLower c) = isBlank c := by
  simp only [isBlank, toNat_toLower, decide_eq_decide]
  split <;> omega

theorem isSpace_toLower (c : UInt8) : isSpace (toLower c) = isSpace c := by
  simp only [isSpace, toNat_toLower, decide_eq_decide]
  split <;> omega

theorem isDigit_toLower (c : UInt8) : isDigit (toLower c) = isDigit c := by
  simp only [isDigit, toNat_toLower, decide_eq_decide]
  split <;> omega

-- A byte that no letter has for its other case.
theorem toLower_eq_iff {c d : UInt8} (hd : d.toNat < 65) : toLower c = d ↔ c = d := by
  rw [← UInt8.toNat_inj, ← UInt8.toNat_inj, toNat_toLower]
  split <;> omega

theorem isSpace_of_isBlank {c : UInt8} (h : isBlank c = true) : isSpace c = true := by
  simp only [isBlank, isSpace, decide_eq_true_iff] at h ⊢
  omega

-- Two texts that differ in case only.
def SameText (a b : Bytes) : Prop := a.map toLower = b.map toLower

theorem SameText.length {a b : Bytes} (h : SameText a b) : a.length = b.length := by
  simpa using congrArg List.length h

theorem SameText.append {a b c d : Bytes} (h : SameText a b) (h' : SameText c d) : SameText (a ++ c) (b ++ d) := by
  rw [SameText, List.map_append, List.map_append, h, h']

theorem SameText.take {a b : Bytes} (h : SameText a b) (n : Nat) : SameText (a.take n) (b.take n) := by
  rw [SameText, List.map_take, List.map_take, h]

theorem SameText.drop {a b : Bytes} (h : SameText a b) (n : Nat) : SameText (a.drop n) (b.drop n) := by
  rw [SameText, List.map_drop, List.map_drop, h]

theorem sameText_cons {c d : UInt8} {a b : Bytes} : SameText (c :: a) (d :: b) ↔ toLower c = toLower d ∧ SameText a b :=
  List.cons_eq_cons

theorem SameText.mem_iff {a b : Bytes} (h : SameText a b) {d : UInt8} (hd : d.toNat < 65) : d ∈ a ↔ d ∈ b := by
  have hmem (l : Bytes) : d ∈ l ↔ d ∈ l.map toLower := by
    rw [List.mem_map]
    constructor
    · exact fun hl => ⟨d, hl, (toLower_eq_iff hd).mpr rfl⟩
    · rintro ⟨c, hc, heq⟩
      exact (toLower_eq_iff hd).mp heq ▸ hc
  rw [hmem a, hmem b, h]

theorem map_rdropWhile (p : UInt8 → Bool) (hp : ∀ c, p (toLower c) = p c) (l : Bytes) :
    (l.map toLower).rdropWhile p = (l.rdropWhile p).map toLower := by
  induction l using List.reverseRecOn with
  | nil => rfl
  | append_singleton l c ih =>
      rw [List.map_append, List.map_singleton, List.rdropWhile_concat, List.rdropWhile_concat, hp]
      split
      · exact ih
      · simp

theorem SameText.rdropWhile {a b : Bytes} (h : SameText a b) (p : UInt8 → Bool) (hp : ∀ c, p (toLower c) = p c) :
    SameText (a.rdropWhile p) (b.rdropWhile p) := by
  rw [SameText, ← map_rdropWhile p hp, ← map_rdropWhile p hp, h]

theorem SameText.hostLength {a b : Bytes} (h : SameText a b) : hostLength a = hostLength b := by
  have hcolon : SameText (a.rdropWhile (· ≠ 58)) (b.rdropWhile (· ≠ 58)) :=
    h.rdropWhile _ fun c => by simp only [ne_eq, toLower_eq_iff (c := c) (d := 58) (by decide)]
  have hlast (l : Bytes) : l.getLast?.any isDigit = (l.map toLower).getLast?.any isDigit := by
    rw [List.getLast?_map, Option.any_map]
    congr 1
    funext c
    exact (isDigit_toLower c).symm
  have hnil : a.rdropWhile (· ≠ 58) ≠ [] ↔ b.rdropWhile (· ≠ 58) ≠ [] := by
    rw [← List.length_pos_iff_ne_nil, ← List.length_pos_iff_ne_nil, hcolon.length]
  simp only [Packets.hostLength]
  rw [hlast a, hlast b, h, hcolon.length, h.length]
  simp only [hnil]

theorem strncasestr_cons (c : UInt8) (rest : Bytes) : strncasestr hostName (c :: rest) =
    if c = 10 ∧ rest.length + 1 < 6 then none
    else if c = 10 ∧ ((c :: rest).take 6).map toLower = hostName.map toLower then some 0
    else (strncasestr hostName rest).map (· + 1) := by
  have hhead : hostName.head? = some c ↔ c = 10 := by
    rw [show hostName.head? = some 10 from rfl, Option.some.injEq]
    exact eq_comm
  rw [strncasestr]
  simp only [hhead, show hostName.length = 6 from rfl]
  split_ifs <;> tauto

-- Where the name of the header is found.
theorem strncasestr_spec {a : Bytes} {k : Nat} (h : strncasestr hostName a = some k) :
    k + 6 ≤ a.length ∧ a[k]? = some 10 ∧ SameText ((a.drop k).take 6) hostName := by
  induction a generalizing k with
  | nil => cases h
  | cons c rest ih =>
      rw [strncasestr_cons] at h
      split at h
      case isTrue => cases h
      case isFalse hlen =>
        split at h
        case isTrue hfound =>
          obtain rfl := Option.some.inj h
          have hroom := not_and.mp hlen hfound.1
          refine ⟨?_, congrArg some hfound.1, hfound.2⟩
          rw [List.length_cons]
          omega
        case isFalse =>
          obtain ⟨k', hk', rfl⟩ := Option.map_eq_some_iff.mp h
          obtain ⟨hle, hget⟩ := ih hk'
          refine ⟨?_, hget⟩
          rw [List.length_cons]
          omega

-- The search for the name does not depend on the case of what it passes, nor on what follows.
theorem strncasestr_congr {a b : Bytes} {k : Nat} (h : strncasestr hostName a = some k)
    (hsame : SameText (a.take (k + 6)) (b.take (k + 6))) : strncasestr hostName b = some k := by
  induction a generalizing b k with
  | nil => cases h
  | cons c rest ih =>
      have hspec := (strncasestr_spec h).1
      have hlen : (b.take (k + 6)).length = k + 6 := by
        rw [← hsame.length, List.length_take_of_le hspec]
      have hsix := hsame.take 6
      rw [List.take_take, List.take_take, min_eq_left (by omega)] at hsix
      cases b with
      | nil => simp at hlen
      | cons d rest' =>
          rw [List.length_take, List.length_cons] at hlen
          rw [List.length_cons] at hspec
          rw [List.take_succ_cons, List.take_succ_cons, sameText_cons] at hsame
          have hten : c = 10 ↔ d = 10 := by
            rw [← toLower_eq_iff (c := c) (d := 10) (by decide), hsame.1, toLower_eq_iff (by decide)]
          rw [strncasestr_cons, if_neg fun hshort => by omega] at h ⊢
          split at h
          case isTrue hfound => rwa [if_pos ⟨hten.mp hfound.1, hsix.symm.trans hfound.2⟩]
          case isFalse hfound =>
            rw [if_neg fun hd => hfound ⟨hten.mpr hd.1, hsix.trans hd.2⟩]
            obtain ⟨k', hk', rfl⟩ := Option.map_eq_some_iff.mp h
            rw [ih hk' hsame.2]
            rfl

-- A request with a Host header, cut at the name of the header, its value and the end of the line.
structure HostLine (buffer pre name blanks value rest : Bytes) : Prop where
  eq_append : buffer = pre ++ (name ++ (blanks ++ (value ++ 10 :: rest)))
  http : isHttp buffer = true
  found : strncasestr hostName buffer = some pre.length
  length_name : name.length = 6
  isBlank_of_mem : ∀ c ∈ blanks, isBlank c = true
  not_mem : 10 ∉ value
  head : ∀ c ∈ value.head?, isBlank c = false

theorem takeWhile_append_of_head {p : UInt8 → Bool} {l m : Bytes} (hl : ∀ c ∈ l, p c = true)
    (hm : ∀ c ∈ m.head?, p c = false) : (l ++ m).takeWhile p = l := by
  rw [List.takeWhile_append_of_pos hl]
  cases m with
  | nil => exact List.append_nil l
  | cons c m => rw [List.takeWhile_cons_of_neg (by rw [hm c rfl]; decide), List.append_nil]

theorem head_dropWhile {p : UInt8 → Bool} {l : Bytes} : ∀ c ∈ (l.dropWhile p).head?, p c = false := by
  induction l with
  | nil => simp
  | cons d l ih =>
      rw [List.dropWhile_cons]
      split
      case isTrue => exact ih
      case isFalse hd => exact fun c hc => Option.some.inj hc ▸ Bool.eq_false_iff.mpr hd

theorem rdropWhile_append {p : UInt8 → Bool} {l m : Bytes} (h : m.rdropWhile p ≠ []) :
    (l ++ m).rdropWhile p = l ++ m.rdropWhile p := by
  induction m using List.reverseRecOn with
  | nil => exact absurd rfl h
  | append_singleton m c ih =>
      rw [← List.append_assoc, List.rdropWhile_concat]
      rw [List.rdropWhile_concat] at h ⊢
      split
      case isTrue hc =>
        rw [if_pos hc] at h
        exact ih h
      case isFalse hc => rw [List.append_assoc]

theorem idxOf?_append_cons {c : UInt8} {l m : Bytes} (h : c ∉ l) : (l ++ c :: m).idxOf? c = some l.length := by
  induction l with
  | nil => simp [List.idxOf?_cons]
  | cons d l ih =>
      rw [List.mem_cons, not_or] at h
      obtain ⟨hd, hl⟩ := h
      rw [List.cons_append, List.idxOf?_cons, ih hl, if_neg (by simpa using Ne.symm hd)]
      rfl

theorem exists_of_idxOf? {c : UInt8} {l : Bytes} {i : Nat} (h : l.idxOf? c = some i) :
    ∃ lo hi, l = lo ++ c :: hi ∧ c ∉ lo ∧ lo.length = i := by
  induction l generalizing i with
  | nil => cases h
  | cons d l ih =>
      rw [List.idxOf?_cons] at h
      split at h
      case isTrue hd => exact ⟨[], l, by rw [eq_of_beq hd]; rfl, List.not_mem_nil, Option.some.inj h⟩
      case isFalse hd =>
        obtain ⟨j, hj, rfl⟩ := Option.map_eq_some_iff.mp h
        obtain ⟨lo, hi, rfl, hlo, rfl⟩ := ih hj
        refine ⟨d :: lo, hi, rfl, ?_, rfl⟩
        rw [List.mem_cons, not_or]
        exact ⟨fun heq => hd (beq_iff_eq.mpr heq.symm), hlo⟩

theorem HostLine.parse {buffer pre name blanks value rest : Bytes} (h : HostLine buffer pre name blanks value rest)
    (hline : value.rdropWhile isSpace ≠ []) : parseHttp buffer =
      some (pre.length + 6 + blanks.length, (hostLength (value.rdropWhile isSpace) : Int)) := by
  have hdrop : buffer.drop (pre.length + 6) = blanks ++ (value ++ 10 :: rest) := by
    rw [h.eq_append, ← List.append_assoc pre, List.drop_left' (by rw [List.length_append, h.length_name])]
  have hhead : ∀ c ∈ (value ++ 10 :: rest).head?, isBlank c = false := by
    cases hv : value with
    | nil => exact fun c hc => Option.some.inj hc ▸ rfl
    | cons d tail => exact fun c hc => h.head c (by rw [hv]; exact hc)
  have htake : (blanks ++ (value ++ 10 :: rest)).take (blanks.length + value.length) = blanks ++ value := by
    rw [← List.append_assoc, List.take_left' (List.length_append)]
  have hblanks := takeWhile_append_of_head h.isBlank_of_mem hhead
  have hvalue : (blanks ++ (value ++ 10 :: rest)).dropWhile isBlank = value ++ 10 :: rest := by
    have hsplit := List.takeWhile_append_dropWhile (p := isBlank) (l := blanks ++ (value ++ 10 :: rest))
    rw [hblanks] at hsplit
    exact List.append_cancel_left hsplit
  rw [parseHttp, if_neg (by rw [h.http]; decide), h.found]
  simp only [hdrop, hblanks, hvalue, idxOf?_append_cons h.not_mem, htake, rdropWhile_append hline]
  have hlen := List.length_pos_iff_ne_nil.mpr hline
  rw [if_neg (by rw [List.length_append]; omega), List.drop_left]

theorem HostLine.sameText_name {buffer pre name blanks value rest : Bytes}
    (h : HostLine buffer pre name blanks value rest) : SameText name hostName := by
  have hname := (strncasestr_spec h.found).2.2
  rwa [h.eq_append, List.drop_left, List.take_left' h.length_name] at hname

-- The methods stand before the first end of a line.
theorem isHttp_append {pre tail other : Bytes} (h : isHttp (pre ++ 10 :: tail) = true)
    (hlen : other.length = tail.length + 1) : isHttp (pre ++ other) = true := by
  simp only [isHttp, decide_eq_true_iff, List.any_eq_true, List.isPrefixOf_iff_prefix] at h ⊢
  obtain ⟨hroom, hlo, hhi, m, hm, hbegins⟩ := h
  have hmem : m ≠ [] ∧ 10 ∉ m := by
    simp only [methods, List.mem_cons, List.not_mem_nil, or_false] at hm
    rcases hm with rfl | rfl | rfl | rfl | rfl | rfl | rfl | rfl | rfl <;> decide
  have hpre : m <+: pre := by
    rcases Nat.lt_or_ge pre.length m.length with hlt | hge
    · have hget := List.IsPrefix.getElem hbegins hlt
      rw [List.getElem_append_right le_rfl] at hget
      simp only [Nat.sub_self, List.getElem_cons_zero] at hget
      exact absurd (hget ▸ List.getElem_mem hlt) hmem.2
    · exact List.prefix_of_prefix_length_le hbegins (List.prefix_append _ _) hge
  have hne : pre ≠ [] := fun hnil => hmem.1 (List.prefix_nil.mp (hnil ▸ hpre))
  obtain ⟨c, pre', rfl⟩ := List.exists_cons_of_ne_nil hne
  refine ⟨?_, hlo, hhi, m, hm, hpre.trans (List.prefix_append _ _)⟩
  rw [List.length_append, List.length_cons] at hroom ⊢
  rw [List.length_cons] at hroom
  omega

-- The same request with other bytes of the same number in its Host line.
theorem HostLine.change {buffer pre name blanks value rest name' value' : Bytes} (blanks' : Bytes)
    (h : HostLine buffer pre name blanks value rest) (hname : SameText name' name)
    (hblanks : ∀ c ∈ blanks', isBlank c = true) (hvalue : 10 ∉ value') (hhead : ∀ c ∈ value'.head?, isBlank c = false)
    (hlen : blanks'.length + value'.length = blanks.length + value.length) :
    HostLine (pre ++ (name' ++ (blanks' ++ (value' ++ 10 :: rest)))) pre name' blanks' value' rest := by
  have hlen6 : name'.length = 6 := hname.length.trans h.length_name
  obtain ⟨c, tail, hcons⟩ := List.exists_cons_of_ne_nil (List.ne_nil_of_length_pos
    (by rw [h.length_name]; decide : 0 < name.length))
  have hten : c = 10 := by
    have hget := (strncasestr_spec h.found).2.1
    rw [h.eq_append, List.getElem?_append_right le_rfl, hcons] at hget
    simpa using hget
  refine ⟨rfl, ?_, ?_, hlen6, hblanks, hvalue, hhead⟩
  · have hhttp := h.http
    rw [h.eq_append, hcons, hten, List.cons_append] at hhttp
    refine isHttp_append hhttp ?_
    have hnlen := congrArg List.length hcons
    simp only [List.length_append, List.length_cons, h.length_name, hlen6] at hnlen ⊢
    omega
  · have hfound := h.found
    refine strncasestr_congr hfound ?_
    rw [h.eq_append, ← List.append_assoc, ← List.append_assoc pre name', List.take_left' (by simp [h.length_name]),
      List.take_left' (by simp [hlen6])]
    exact (show SameText pre pre from rfl).append hname.symm

theorem exists_hostLine {buffer : Bytes} {host : Nat} {len : Int} (h : parseHttp buffer = some (host, len))
    (hlen : 0 < len) : ∃ pre name blanks value rest, HostLine buffer pre name blanks value rest ∧
      value.rdropWhile isSpace ≠ [] := by
  rw [parseHttp] at h
  split at h
  case isTrue => cases h
  case isFalse hhttp =>
    split at h
    case h_1 => cases h
    case h_2 offs hfound =>
      simp only at h
      split at h
      case h_1 => cases h
      case h_2 eol heol =>
        obtain ⟨value, rest, hvalue, hnot, rfl⟩ := exists_of_idxOf? heol
        have hroom := (strncasestr_spec hfound).1
        have hrest := List.takeWhile_append_dropWhile (p := isBlank) (l := buffer.drop (offs + 6))
        have hhead := head_dropWhile (p := isBlank) (l := buffer.drop (offs + 6))
        generalize hblanks : (buffer.drop (offs + 6)).takeWhile isBlank = blanks at hrest h
        have hblank : ∀ c ∈ blanks, isBlank c = true := fun c hc => by
          rw [← hblanks] at hc
          exact List.mem_takeWhile_imp hc
        rw [hvalue] at hrest hhead
        have htake : (blanks ++ (value ++ 10 :: rest)).take (blanks.length + value.length) = blanks ++ value := by
          rw [← List.append_assoc, List.take_left' List.length_append]
        rw [← hrest, htake] at h
        refine ⟨buffer.take offs, (buffer.drop offs).take 6, blanks, value, rest,
          ⟨?_, by simpa using hhttp, ?_, ?_, hblank, hnot, ?_⟩, fun hnil => ?_⟩
        · rw [hrest, ← List.drop_drop, List.take_append_drop, List.take_append_drop]
        · rw [List.length_take_of_le (by omega), hfound]
        · rw [List.length_take_of_le]
          rw [List.length_drop]
          omega
        · cases hv : value with
          | nil => exact fun c hc => by cases hc
          | cons d tail =>
              rw [hv] at hhead
              exact hhead
        · -- Without anything but spaces the line has no length.
          have hspaces : (blanks ++ value).rdropWhile isSpace = [] := by
            rw [List.rdropWhile_eq_nil_iff] at hnil ⊢
            intro c hc
            rcases List.mem_append.mp hc with hc | hc
            · exact isSpace_of_isBlank (hblank c hc)
            · exact hnil c hc
          rw [hspaces, List.length_nil, if_pos (Nat.zero_le _)] at h
          obtain ⟨-, rfl⟩ := Prod.mk.inj (Option.some.inj h)
          omega

end ToInet.Byedpi.Packets
