import ToInet.Byedpi.ByeDpiRouter.ExtractDomain.Prefix

-- The heads of HTTP/1.x requests, and the host that is found in them.
namespace ToInet.Byedpi.ByeDpiRouter

open ToInet.Lib

def isDigit (b : UInt8) : Bool := 48 ≤ b.toNat ∧ b.toNat ≤ 57

def isAlpha (b : UInt8) : Bool := 65 ≤ b.toNat ∧ b.toNat ≤ 90 ∨ 97 ≤ b.toNat ∧ b.toNat ≤ 122

-- The bytes of a token, which is what a field name is.
def isTokenByte (b : UInt8) : Bool :=
  isDigit b || isAlpha b || b.toNat ∈ [33, 35, 36, 37, 38, 39, 42, 43, 45, 46, 94, 95, 96, 124, 126]

-- Unreserved characters, percent signs and sub-delimiters: the bytes of a registered name, and of an
-- IPv4 address.
def isNameByte (b : UInt8) : Bool :=
  isDigit b || isAlpha b || b.toNat ∈ [33, 36, 37, 38, 39, 40, 41, 42, 43, 44, 45, 46, 59, 61, 95, 126]

def isAddressByte (b : UInt8) : Bool :=
  isDigit b || 65 ≤ b.toNat && b.toNat ≤ 70 || 97 ≤ b.toNat && b.toNat ≤ 102 || b.toNat ∈ [46, 58]

def isVisible (b : UInt8) : Bool := 33 ≤ b.toNat ∧ b.toNat ≤ 126

def isSpaceOrTab (b : UInt8) : Bool := b.toNat ∈ [9, 32]

def noBreak (line : Bytes) : Prop := ∀ b ∈ line, ¬Lines.IsBreak 13 10 b

def isHostName (name : Bytes) : Prop := name.map (fun b => (asciiChar b).toLower) = "host".toList

-- A field, whose value may go on in lines that begin with a space or a tab.
structure Field where
  name : Bytes
  value : Bytes
  folded : List Bytes
  name_ne : name ≠ []
  name_token : ∀ b ∈ name, isTokenByte b = true
  value_noBreak : noBreak value
  folded_noBreak : ∀ line ∈ folded, noBreak line ∧ ∃ b rest, line = b :: rest ∧ isSpaceOrTab b = true

def Field.lines (field : Field) : List Bytes := (field.name ++ 58 :: field.value) :: field.folded

inductive Host where
  | named (name : Bytes) (hname : ∀ b ∈ name, isNameByte b = true)
  | ipv6 (address : Bytes) (haddress : ∀ b ∈ address, isAddressByte b = true) (hcolon : 58 ∈ address)

def Host.bytes : Host → Bytes
  | .named name _ => name
  | .ipv6 address .. => [91] ++ address ++ [93]

structure HostField where
  name : Bytes
  leading : Bytes
  host : Host
  port : Option Bytes
  trailing : Bytes
  isHost : isHostName name
  leading_blank : ∀ b ∈ leading, isSpaceOrTab b = true
  port_digits : ∀ digits, port = some digits → ∀ b ∈ digits, isDigit b = true
  trailing_blank : ∀ b ∈ trailing, isSpaceOrTab b = true

namespace HostField

variable (field : HostField)

def portBytes : Bytes := field.port.elim [] fun digits => 58 :: digits

def value : Bytes := field.leading ++ (field.host.bytes ++ (field.portBytes ++ field.trailing))

def line : Bytes := field.name ++ 58 :: field.value

end HostField

-- A request with one field for the host.
structure RequestHead where
  method : String
  target : Bytes
  minor : UInt8
  before : List Field
  hostField : HostField
  after : List Field
  method_mem : method ∈ httpMethods
  target_ne : target ≠ []
  target_visible : ∀ b ∈ target, isVisible b = true
  minor_digit : isDigit minor = true
  oneHost : ∀ field ∈ before ++ after, ¬isHostName field.name

namespace RequestHead

variable (head : RequestHead)

def requestLine : Bytes := toByteArray head.method ++ (head.target ++ (toByteArray " HTTP/1." ++ [head.minor]))

def lines : List Bytes :=
  head.requestLine :: (head.before.flatMap Field.lines ++
    head.hostField.line :: (head.after.flatMap Field.lines ++ [[]]))

def bytes : Bytes := head.lines.flatMap fun line => line ++ [13, 10]

-- The value begins with a space, and the host is not an address in brackets.
def Plain : Prop := head.hostField.value.head? = some 32 ∧ ∃ name hname, head.hostField.host = .named name hname

end RequestHead

variable {texts : Texts}

variable (texts) in
theorem map_fold_iff {chars letters : List Char} (hchars : ∀ c ∈ chars, c.toNat < 128)
    (hletters : ∀ c ∈ letters, c.toNat < 128) :
    chars.map texts.fold = letters.map texts.fold ↔ chars.map Char.toLower = letters.map Char.toLower := by
  induction chars generalizing letters with
  | nil => cases letters <;> simp
  | cons c chars ih =>
      cases letters with
      | nil => simp
      | cons d letters =>
          have hrest := ih (fun x hx => hchars x (List.mem_cons_of_mem _ hx)) fun x hx =>
            hletters x (List.mem_cons_of_mem _ hx)
          have hhead := texts.fold_ascii c d (hchars c List.mem_cons_self) (hletters d List.mem_cons_self)
          rw [List.map_cons, List.map_cons, List.map_cons, List.map_cons, List.cons_eq_cons, List.cons_eq_cons, hhead,
            hrest]

-- What stands below 128 at the beginning of a host line are letters of its name, in either case.
theorem toLower_of_startsWithHost {front rest : List Char} (hascii : ∀ c ∈ front, c.toNat < 128)
    (hlength : front.length ≤ 6) (h : startsWithHost texts (front ++ rest) = true) :
    front.map Char.toLower = ("Host: ".toList.take front.length).map Char.toLower := by
  rw [startsWithHost, List.isPrefixOf_iff_prefix, List.map_append] at h
  obtain ⟨more, hmore⟩ := h
  have hletters : ∀ c ∈ "Host: ".toList.take front.length, c.toNat < 128 := by
    have hall : ∀ c ∈ "Host: ".toList, c.toNat < 128 := forall_mem_of_all (by decide)
    exact fun c hc => hall c (List.mem_of_mem_take hc)
  refine (map_fold_iff texts hascii hletters).mp ?_
  have htake := congrArg (List.take front.length) hmore
  rw [List.take_append_of_le_length (by simpa using hlength), List.take_left' (by simp), ← List.map_take] at htake
  exact htake.symm

theorem httpMethods_lower : ∀ method ∈ httpMethods, (∀ c ∈ method.toList, c.toNat < 128) ∧
    (method.toList.take 2).length = 2 ∧ method.toList.length ≤ 8 ∧
      (method.toList.take 2).map Char.toLower ≠ ("Host: ".toList.take 2).map Char.toLower := by
  intro method hmem
  have hascii : ∀ c ∈ httpMethods.flatMap String.toList, c.toNat < 128 := forall_mem_of_all (by decide)
  have hrest : ∀ method ∈ httpMethods, (method.toList.take 2).length = 2 ∧ method.toList.length ≤ 8 ∧
      (method.toList.take 2).map Char.toLower ≠ ("Host: ".toList.take 2).map Char.toLower := by decide
  exact ⟨fun c hc => hascii c (List.mem_flatMap.mpr ⟨method, hmem, hc⟩), hrest method hmem⟩

theorem token_lower {b : UInt8} (h : isTokenByte b = true) : IsAscii b ∧ (asciiChar b).toLower ≠ ':' := by
  have hrange : b.toNat < 128 ∧ b.toNat ≠ 58 := by
    simp [isTokenByte, isDigit, isAlpha] at h
    omega
  refine ⟨hrange.1, fun hlower => hrange.2 ?_⟩
  have hcolon := congrArg Char.toNat (eq_of_toLower (by decide) hlower)
  rwa [toNat_asciiChar] at hcolon

-- A line of a field is a host line only for a field with the name of the host.
theorem isHostName_of_line {name value : Bytes} (hname : ∀ b ∈ name, isTokenByte b = true)
    (h : isHostLine texts (name ++ 58 :: value) = true) : isHostName name := by
  have hascii : ∀ b ∈ name, IsAscii b := fun b hb => (token_lower (hname b hb)).1
  have hfront : ∀ c ∈ name.map asciiChar ++ [':'], c.toNat < 128 := by
    intro c hc
    obtain hc | hc := List.mem_append.mp hc
    · obtain ⟨b, hb, rfl⟩ := List.mem_map.mp hc
      rw [toNat_asciiChar]
      exact hascii b hb
    · rw [List.mem_singleton.mp hc]
      decide
  rw [isHostLine, texts.charset.decode_append_ascii hascii, texts.charset.decode_cons_ascii (by decide),
    show asciiChar 58 = ':' from rfl] at h
  have hline : startsWithHost texts ((name.map asciiChar ++ [':']).take 5 ++
      ((name.map asciiChar ++ [':']).drop 5 ++ texts.charset.decode value)) = true := by
    rwa [← List.append_assoc, List.take_append_drop, List.append_assoc]
  have hlower := toLower_of_startsWithHost (fun c hc => hfront c (List.mem_of_mem_take hc))
    ((List.length_take_le _ _).trans (by decide)) hline
  by_cases hlong : 5 ≤ name.length
  · -- The fifth byte of a longer name is no colon.
    rw [List.take_append_of_le_length (by simpa using hlong), List.length_take, List.length_map, Nat.min_eq_left hlong,
      List.map_take, List.map_map] at hlower
    have hcolon : ':' ∈ (name.map (Char.toLower ∘ asciiChar)).take 5 := by
      rw [hlower]
      decide
    obtain ⟨b, hb, hsame⟩ := List.mem_map.mp (List.mem_of_mem_take hcolon)
    exact absurd hsame (token_lower (hname b hb)).2
  · rw [List.take_of_length_le (by simp; omega), List.length_append, List.length_map, List.map_append,
      List.map_map] at hlower
    have hfour : name.length = 4 := by
      by_contra hne
      have hcolon : ':' ∈ ("Host: ".toList.take (name.length + 1)).map Char.toLower := by
        have hlast : ':' ∈ name.map (Char.toLower ∘ asciiChar) ++ [':'].map Char.toLower :=
          List.mem_append_right _ (by decide)
        rwa [hlower] at hlast
      obtain ⟨c, hc, hsame⟩ := List.mem_map.mp hcolon
      have hletter : c ∈ "Host: ".toList.take 4 := List.take_subset_take_left _ (by omega) hc
      have hnone : ∀ c ∈ "Host: ".toList.take 4, c.toLower ≠ ':' := forall_mem_of_all (by decide)
      exact hnone c hletter hsame
    rw [hfour] at hlower
    exact List.append_cancel_right
      (show name.map (Char.toLower ∘ asciiChar) ++ [':'] = "host".toList ++ [':'] from hlower)

-- The line of the host field is one exactly if a space comes behind the colon.
theorem isHostLine_iff {name value : Bytes} (hname : isHostName name) (hascii : ∀ b ∈ name, IsAscii b)
    (hvalue : ∀ b ∈ value, IsAscii b) : isHostLine texts (name ++ 58 :: value) = true ↔ value.head? = some 32 := by
  have hline : texts.charset.decode (name ++ 58 :: value) = (name.map asciiChar ++ [':']) ++ value.map asciiChar := by
    rw [texts.charset.decode_append_ascii hascii, texts.charset.decode_cons_ascii (by decide),
      texts.charset.decode_of_ascii hvalue, List.append_assoc]
    rfl
  have hlength : (name.map asciiChar ++ [':']).length = 5 := by
    have hfour := congrArg List.length hname
    simpa using hfour
  rw [isHostLine, hline, startsWithHost_iff]
  constructor
  · rintro ⟨start, rest, hsplit, hstart, _⟩
    have hfive : start.length = 5 := by simpa using congrArg List.length hstart
    obtain ⟨_, hspace⟩ := List.append_inj hsplit (hlength.trans hfive.symm)
    obtain ⟨b, value, rfl, hb, _⟩ := List.map_eq_cons_iff.mp hspace
    obtain rfl : b = 32 := asciiChar_inj hb
    rfl
  · intro h
    obtain ⟨rest, rfl⟩ : ∃ rest, value = 32 :: rest := List.head?_eq_some_iff.mp h
    refine ⟨name.map asciiChar ++ [':'], rest.map asciiChar, rfl,
      (map_fold_iff texts ?_ (forall_mem_of_all (by decide))).mpr ?_, ?_⟩
    · intro c hc
      obtain hc | hc := List.mem_append.mp hc
      · obtain ⟨b, hb, rfl⟩ := List.mem_map.mp hc
        rw [toNat_asciiChar]
        exact hascii b hb
      · rw [List.mem_singleton.mp hc]
        decide
    · rw [List.map_append, List.map_map]
      exact congrArg (· ++ [':']) hname
    · intro hmem
      obtain hmem | hmem := List.mem_append.mp hmem
      · obtain ⟨b, hb, hspace⟩ := List.mem_map.mp hmem
        have hletter : (asciiChar b).toLower ∈ "host".toList := by
          have hlower := List.mem_map_of_mem (f := fun b => (asciiChar b).toLower) hb
          rwa [hname] at hlower
        rw [hspace] at hletter
        exact absurd hletter (by decide)
      · exact absurd hmem (by decide)

theorem noBreak_append {line more : Bytes} (h : noBreak line) (hmore : noBreak more) : noBreak (line ++ more) := by
  intro b hb
  obtain hb | hb := List.mem_append.mp hb
  · exact h b hb
  · exact hmore b hb

theorem noBreak_of_ne {line : Bytes} (h : ∀ b ∈ line, b.toNat ≠ 10 ∧ b.toNat ≠ 13) : noBreak line := by
  intro b hb hbreak
  obtain ⟨hlf, hcr⟩ := h b hb
  obtain rfl | rfl := hbreak
  · exact hlf rfl
  · exact hcr rfl

theorem visible_ne {b : UInt8} (h : isVisible b = true) : b.toNat ≠ 10 ∧ b.toNat ≠ 13 := by
  simp [isVisible] at h
  omega

theorem token_visible {b : UInt8} (h : isTokenByte b = true) : isVisible b = true := by
  simp [isTokenByte, isDigit, isAlpha, isVisible] at h ⊢
  omega

-- The name consists of letters.
theorem letter_of_isHostName {name : Bytes} (h : isHostName name) : ∀ b ∈ name, isAlpha b = true := by
  intro b hb
  have hletter : (asciiChar b).toLower ∈ "host".toList := by
    have hlower := List.mem_map_of_mem (f := fun b => (asciiChar b).toLower) hb
    rwa [h] at hlower
  have hcode : isAlpha b = true ↔ 65 ≤ b.toNat ∧ b.toNat ≤ 90 ∨ 97 ≤ b.toNat ∧ b.toNat ≤ 122 := by simp [isAlpha]
  rw [hcode, ← toNat_asciiChar]
  obtain hsame | hupper := toLower_cases (asciiChar b)
  · rw [hsame] at hletter
    have hletters : ∀ c ∈ "host".toList, 97 ≤ c.toNat ∧ c.toNat ≤ 122 := forall_mem_of_all (by decide)
    exact .inr (hletters _ hletter)
  · exact .inl hupper

theorem noBreak_field (field : Field) : ∀ line ∈ field.lines, noBreak line := by
  intro line hline
  obtain rfl | hline := List.mem_cons.mp hline
  · refine noBreak_append (noBreak_of_ne fun b hb => visible_ne (token_visible (field.name_token b hb))) ?_
    intro b hb
    obtain rfl | hb := List.mem_cons.mp hb
    · decide
    · exact field.value_noBreak b hb
  · exact (field.folded_noBreak line hline).1

namespace HostField

variable (field : HostField)

theorem name_ascii : ∀ b ∈ field.name, IsAscii b := by
  intro b hb
  have hletter := letter_of_isHostName field.isHost b hb
  simp [isAlpha] at hletter
  unfold IsAscii
  omega

theorem host_range : ∀ b ∈ field.host.bytes, b.toNat < 128 ∧ b.toNat ≠ 9 ∧ b.toNat ≠ 32 ∧ b.toNat ≠ 10 ∧
    b.toNat ≠ 13 := by
  cases field.host with
  | named name hname =>
      intro b hb
      have hbyte := hname b hb
      simp [isNameByte, isDigit, isAlpha] at hbyte
      omega
  | ipv6 address haddress hcolon =>
      intro b hb
      simp only [Host.bytes, List.mem_append, List.mem_singleton] at hb
      obtain (rfl | hb) | rfl := hb
      · decide
      · have hbyte := haddress b hb
        simp [isAddressByte, isDigit] at hbyte
        omega
      · decide

theorem port_range : ∀ b ∈ field.portBytes, 48 ≤ b.toNat ∧ b.toNat ≤ 58 := by
  unfold portBytes
  cases hport : field.port with
  | none => nofun
  | some digits =>
      intro b hb
      obtain rfl | hb := List.mem_cons.mp hb
      · decide
      · have hdigit := field.port_digits digits hport b hb
        simp [isDigit] at hdigit
        omega

theorem blank_range {blank : Bytes} (h : ∀ b ∈ blank, isSpaceOrTab b = true) :
    ∀ b ∈ blank, b.toNat = 9 ∨ b.toNat = 32 := by
  intro b hb
  simpa [isSpaceOrTab] using h b hb

theorem value_range : ∀ b ∈ field.value, b.toNat < 128 ∧ b.toNat ≠ 10 ∧ b.toNat ≠ 13 := by
  intro b hb
  simp only [value, List.mem_append] at hb
  obtain hb | hb | hb | hb := hb
  · have hblank := blank_range field.leading_blank b hb
    omega
  · have hhost := field.host_range b hb
    omega
  · have hport := field.port_range b hb
    omega
  · have hblank := blank_range field.trailing_blank b hb
    omega

end HostField

section

variable (head : RequestHead)

theorem noBreak_lines : ∀ line ∈ head.lines, noBreak line := by
  intro line hline
  simp only [RequestHead.lines, List.mem_cons, List.mem_append, List.mem_flatMap, List.not_mem_nil, or_false] at hline
  obtain rfl | ⟨field, _, hline⟩ | rfl | ⟨field, _, hline⟩ | rfl := hline
  · have hmethods : ∀ b ∈ httpMethods.flatMap toByteArray, b.toNat ≠ 10 ∧ b.toNat ≠ 13 := forall_mem_of_all (by decide)
    have hversion : ∀ b ∈ toByteArray " HTTP/1.", b.toNat ≠ 10 ∧ b.toNat ≠ 13 := forall_mem_of_all (by decide)
    have hmethod : ∀ b ∈ toByteArray head.method, b.toNat ≠ 10 ∧ b.toNat ≠ 13 :=
      fun b hb => hmethods b (List.mem_flatMap.mpr ⟨head.method, head.method_mem, hb⟩)
    refine noBreak_append (noBreak_of_ne hmethod) (noBreak_append ?_ (noBreak_append ?_ ?_))
    · exact noBreak_of_ne fun b hb => visible_ne (head.target_visible b hb)
    · exact noBreak_of_ne hversion
    · have hdigit := head.minor_digit
      simp [isDigit] at hdigit
      refine noBreak_of_ne fun b hb => ?_
      rw [List.mem_singleton.mp hb]
      omega
  · exact noBreak_field field line hline
  · refine noBreak_of_ne fun b hb => ?_
    simp only [HostField.line, List.mem_append, List.mem_cons] at hb
    obtain hb | rfl | hb := hb
    · have hletter := letter_of_isHostName head.hostField.isHost b hb
      simp [isAlpha] at hletter
      omega
    · decide
    · exact (head.hostField.value_range b hb).2
  · exact noBreak_field field line hline
  · nofun

theorem lines_bytes : lines 13 10 head.bytes = head.lines ++ [[]] := by
  rw [lines, RequestHead.bytes, Lines.read, Lines.start, Lines.foldl_push_lines (by decide) (noBreak_lines head)]
  rfl

theorem not_hostLine_of_method {method : String} (hmethod : method ∈ httpMethods) (rest : Bytes) :
    isHostLine texts (toByteArray method ++ rest) = false := by
  obtain ⟨hascii, htwo, _, hlower⟩ := httpMethods_lower method hmethod
  rw [← Bool.not_eq_true, isHostLine, texts.charset.decode_text_append hascii, ← List.take_append_drop 2 method.toList,
    List.append_assoc]
  intro h
  have hsame := toLower_of_startsWithHost (fun c hc => hascii c (List.mem_of_mem_take hc)) (by omega) h
  rw [htwo] at hsame
  exact hlower hsame

theorem not_hostLine_of_blank {b : UInt8} (hb : isSpaceOrTab b = true) (rest : Bytes) :
    isHostLine texts (b :: rest) = false := by
  have hcode : b = 9 ∨ b = 32 := by simpa [isSpaceOrTab, ← UInt8.toNat_inj] using hb
  rw [← Bool.not_eq_true, isHostLine]
  intro h
  obtain rfl | rfl := hcode
  · rw [texts.charset.decode_cons_ascii (by decide)] at h
    have hsame := toLower_of_startsWithHost (show ∀ c ∈ ['\t'], c.toNat < 128 from forall_mem_of_all (by decide))
        (by decide) h
    exact absurd hsame (by decide)
  · rw [texts.charset.decode_cons_ascii (by decide)] at h
    have hsame := toLower_of_startsWithHost (show ∀ c ∈ [' '], c.toNat < 128 from forall_mem_of_all (by decide))
        (by decide) h
    exact absurd hsame (by decide)

theorem not_hostLine_of_field {field : Field} (hfield : ¬isHostName field.name) :
    ∀ line ∈ field.lines, isHostLine texts line = false := by
  intro line hline
  obtain rfl | hline := List.mem_cons.mp hline
  · rw [← Bool.not_eq_true]
    exact fun h => hfield (isHostName_of_line field.name_token h)
  · obtain ⟨_, b, rest, rfl, hb⟩ := field.folded_noBreak line hline
    exact not_hostLine_of_blank hb rest

theorem not_hostLine_nil : isHostLine texts [] = false := by
  rw [isHostLine, texts.charset.decode_nil]
  rfl

theorem find_hostLine : (lines 13 10 head.bytes).find? (isHostLine texts) =
    if isHostLine texts head.hostField.line then some head.hostField.line else none := by
  have hfields : ∀ fields : List Field, (∀ field ∈ fields, field ∈ head.before ++ head.after) →
      (fields.flatMap Field.lines).find? (isHostLine texts) = none := by
    intro fields hmem
    rw [List.find?_eq_none]
    intro line hline
    obtain ⟨field, hfield, hline⟩ := List.mem_flatMap.mp hline
    rw [not_hostLine_of_field (head.oneHost field (hmem field hfield)) line hline]
    exact Bool.false_ne_true
  rw [lines_bytes, RequestHead.lines, List.cons_append,
    List.find?_cons_of_neg
      (by rw [RequestHead.requestLine, not_hostLine_of_method head.method_mem]; exact Bool.false_ne_true),
    List.append_assoc, List.find?_append, hfields _ fun field h => List.mem_append_left _ h, Option.none_or,
    List.cons_append, List.find?_cons]
  cases isHostLine texts head.hostField.line with
  | true => rfl
  | false =>
      rw [List.append_assoc, List.find?_append, hfields _ fun field h => List.mem_append_right _ h, Option.none_or]
      simp [not_hostLine_nil]

end

theorem dropWhile_text {text rest : List Char} (h : ∀ c ∈ text, isBlankChar c = false) (hne : text ≠ []) :
    (text ++ rest).dropWhile isBlankChar = text ++ rest := by
  obtain ⟨c, text, rfl⟩ := List.exists_cons_of_ne_nil hne
  rw [List.cons_append, List.dropWhile_cons_of_neg (by rw [h c List.mem_cons_self]; exact Bool.false_ne_true)]

theorem trim_around {leading text trailing : List Char} (hleading : ∀ c ∈ leading, isBlankChar c = true)
    (htext : ∀ c ∈ text, isBlankChar c = false) (htrailing : ∀ c ∈ trailing, isBlankChar c = true) :
    trim (leading ++ (text ++ trailing)) = text := by
  rw [trim, dropWhile_blank hleading]
  by_cases hne : text = []
  · subst hne
    rw [List.nil_append, ← List.append_nil trailing, dropWhile_blank htrailing]
    rfl
  · rw [dropWhile_text htext hne, List.rdropWhile, List.reverse_append,
      dropWhile_blank fun c hc => htrailing c (List.mem_reverse.mp hc), ← List.append_nil text.reverse,
      dropWhile_text (fun c hc => htext c (List.mem_reverse.mp hc)) (by simpa using hne)]
    simp

-- Neither the white space nor the port is part of the host.
theorem hostOf_around {leading host trailing : List Char} (hleading : ∀ c ∈ leading, isBlankChar c = true)
    (hhost : ∀ c ∈ host, isBlankChar c = false) (hcolon : ':' ∉ host) (htrailing : ∀ c ∈ trailing, isBlankChar c = true)
    (port : Option (List Char)) :
    hostOf (leading ++ (host ++ ((port.elim [] fun digits => ':' :: digits) ++ trailing))) = host := by
  have hnone {blank : List Char} (hblank : ∀ c ∈ blank, isBlankChar c = true) : ':' ∉ blank :=
    fun hmem => absurd (hblank ':' hmem) (by decide)
  cases port with
  | none =>
      rw [Option.elim_none, List.nil_append, hostOf_plain, trim_around hleading hhost htrailing]
      simp [hnone hleading, hcolon, hnone htrailing]
  | some digits =>
      rw [Option.elim_some, List.cons_append, ← List.append_assoc, hostOf_colon (by simp [hnone hleading, hcolon]),
        dropWhile_blank hleading]
      by_cases hne : host = []
      · rw [hne]
        rfl
      · rw [← List.append_nil host, dropWhile_text hhost hne]

theorem colon_notMem_hostOf (value : List Char) : ':' ∉ hostOf value := by
  intro hmem
  have hne := List.all_eq_true.mp (List.all_takeWhile (l := trim value)) ':' hmem
  exact absurd hne (by decide)

theorem blank_asciiChar {bytes : Bytes} (h : ∀ b ∈ bytes, isSpaceOrTab b = true) :
    ∀ c ∈ bytes.map asciiChar, isBlankChar c = true := by
  intro c hc
  obtain ⟨b, hb, rfl⟩ := List.mem_map.mp hc
  have hcode : b = 9 ∨ b = 32 := by simpa [isSpaceOrTab, ← UInt8.toNat_inj] using h b hb
  obtain rfl | rfl := hcode <;> decide

theorem nameByte_text {b : UInt8} (h : isNameByte b = true) :
    isBlankChar (asciiChar b) = false ∧ asciiChar b ≠ ':' := by
  have hrange : 33 ≤ b.toNat ∧ b.toNat ≤ 126 ∧ b.toNat ≠ 58 := by
    simp [isNameByte, isDigit, isAlpha] at h
    omega
  refine ⟨?_, fun hcolon => ?_⟩
  · rw [← Bool.not_eq_true]
    intro hblank
    simp [isBlankChar, isWhitespace, isSpaceChar, toNat_asciiChar] at hblank
    omega
  · have hcode := congrArg Char.toNat hcolon
    rw [toNat_asciiChar] at hcode
    exact hrange.2.2 hcode

-- What is found in the value behind its first space.
theorem hostOf_value (field : HostField) {rest : Bytes} (hvalue : field.value = 32 :: rest) :
    hostOf (rest.map asciiChar) = field.host.bytes.map asciiChar ↔ ∃ name hname, field.host = .named name hname := by
  cases hhost : field.host with
  | ipv6 address haddress hcolon =>
      refine iff_of_false (fun h => colon_notMem_hostOf (rest.map asciiChar) ?_) nofun
      rw [h]
      exact List.mem_map.mpr ⟨58, by simp [Host.bytes, hcolon], rfl⟩
  | named name hname =>
      refine iff_of_true ?_ ⟨name, hname, rfl⟩
      have htext : ∀ c ∈ name.map asciiChar, isBlankChar c = false := by
        intro c hc
        obtain ⟨b, hb, rfl⟩ := List.mem_map.mp hc
        exact (nameByte_text (hname b hb)).1
      have hcolon : ':' ∉ name.map asciiChar := by
        intro hmem
        obtain ⟨b, hb, hsame⟩ := List.mem_map.mp hmem
        exact (nameByte_text (hname b hb)).2 hsame
      have hsplit : ∃ leading trailing, (∀ b ∈ leading, isSpaceOrTab b = true) ∧
          (∀ b ∈ trailing, isSpaceOrTab b = true) ∧ rest = leading ++ (name ++ (field.portBytes ++ trailing)) := by
        rw [HostField.value, hhost, Host.bytes] at hvalue
        cases hleading : field.leading with
        | cons b leading =>
            rw [hleading] at hvalue
            refine ⟨leading, field.trailing, fun x hx => field.leading_blank x ?_, field.trailing_blank,
              (List.cons.inj hvalue).2.symm⟩
            rw [hleading]
            exact List.mem_cons_of_mem _ hx
        | nil =>
            rw [hleading, List.nil_append] at hvalue
            cases name with
            | cons c name =>
                obtain ⟨rfl, _⟩ := List.cons.inj hvalue
                exact absurd (hname 32 List.mem_cons_self) (by decide)
            | nil =>
                cases hport : field.port with
                | some digits =>
                    rw [HostField.portBytes, hport] at hvalue
                    exact absurd (List.cons.inj hvalue).1 (by decide)
                | none =>
                    rw [HostField.portBytes, hport] at hvalue ⊢
                    refine ⟨[], rest, nofun, fun x hx => field.trailing_blank x ?_, rfl⟩
                    have htrailing : field.trailing = 32 :: rest := hvalue
                    rw [htrailing]
                    exact List.mem_cons_of_mem _ hx
      obtain ⟨leading, trailing, hleading, htrailing, rfl⟩ := hsplit
      have hfound := hostOf_around (blank_asciiChar hleading) htext hcolon (blank_asciiChar htrailing)
        (field.port.map (List.map asciiChar))
      have hport : field.portBytes.map asciiChar =
          (field.port.map (List.map asciiChar)).elim [] fun digits => ':' :: digits := by
        rw [HostField.portBytes]
        cases field.port <;> rfl
      rw [List.map_append, List.map_append, List.map_append, hport]
      exact hfound

theorem isHttp_head (head : RequestHead) {firstChunk : Bytes} {length : Nat}
    (hread : firstChunk.take length = head.bytes) :
    16 ≤ length ∧ isHttp texts firstChunk length = true := by
  have hstart : head.bytes = toByteArray head.method ++
      (head.target ++ (toByteArray " HTTP/1." ++ [head.minor]) ++ [13, 10] ++
      (head.lines.tail.flatMap fun line => line ++ [13, 10])) := by
    simp [RequestHead.bytes, RequestHead.lines, RequestHead.requestLine]
  have hsizes : ∀ method ∈ httpMethods, 4 ≤ (toByteArray method).length ∧ (toByteArray method).length ≤ 8 := by decide
  obtain ⟨hfour, height⟩ := hsizes _ head.method_mem
  have htarget := List.length_pos_iff.mpr head.target_ne
  have hlength : 16 ≤ length := by
    have htake : head.bytes.length ≤ length := hread ▸ List.length_take_le _ _
    have hversion : (toByteArray " HTTP/1.").length = 8 := by decide
    rw [hstart] at htake
    simp only [List.length_append, List.length_cons, List.length_nil, hversion] at htake
    omega
  refine ⟨hlength, ?_⟩
  obtain ⟨hascii, _⟩ := httpMethods_lower _ head.method_mem
  obtain ⟨rest, hmethod⟩ : ∃ rest, firstChunk.take (min 8 length) = toByteArray head.method ++ rest :=
    ⟨_, by rw [← List.take_take, hread, hstart, List.take_append, List.take_of_length_le height]⟩
  rw [isHttp, hmethod, texts.charset.decode_text_append hascii, List.any_eq_true]
  exact ⟨head.method, head.method_mem, List.isPrefixOf_iff_prefix.mpr (List.prefix_append _ _)⟩

-- The host of a request is found exactly if a space comes first in the value and the host is no
-- address in brackets.
theorem extractDomain_head_iff (texts : Texts) (head : RequestHead) {firstChunk : Bytes} {length : Nat}
    (hread : firstChunk.take length = head.bytes) :
    extractDomain texts firstChunk length = some (String.ofList (head.hostField.host.bytes.map asciiChar)) ↔
      head.Plain := by
  obtain ⟨hlength, hhttp⟩ : 16 ≤ length ∧ isHttp texts firstChunk length = true := isHttp_head head hread
  have hvalue : ∀ b ∈ head.hostField.value, IsAscii b := fun b hb => (head.hostField.value_range b hb).1
  have hline : isHostLine texts head.hostField.line = true ↔ head.hostField.value.head? = some 32 :=
    isHostLine_iff head.hostField.isHost head.hostField.name_ascii hvalue
  rw [extractDomain, if_neg (by omega), if_pos hhttp, hread, httpHost_decode, find_hostLine, RequestHead.Plain]
  by_cases hspace : head.hostField.value.head? = some 32
  · obtain ⟨rest, hrest⟩ := List.head?_eq_some_iff.mp hspace
    have hname : 32 ∉ head.hostField.name ++ [58] := by
      intro hmem
      obtain hmem | hmem := List.mem_append.mp hmem
      · exact absurd (letter_of_isHostName head.hostField.isHost 32 hmem) (by decide)
      · exact absurd hmem (by decide)
    have hafter : hostValue head.hostField.line = rest := by
      rw [HostField.line, hrest, ← List.singleton_append, ← List.append_assoc, hostValue_append hname]
    have hdrop := ((hostLine_split (hline.mpr hspace)).2 []).2
    rw [List.append_nil, List.append_nil, hafter,
      texts.charset.decode_of_ascii fun b hb => hvalue b (hrest ▸ List.mem_cons_of_mem _ hb)] at hdrop
    rw [if_pos (hline.mpr hspace), Option.map_some, Option.map_some, hdrop, Option.some.injEq, String.ofList_inj,
      hostOf_value head.hostField hrest, and_iff_right hspace]
  · rw [if_neg fun h => hspace (hline.mp h)]
    exact iff_of_false nofun fun h => hspace h.1

-- Requests for example.com, the second one without a space behind the colon.
def getHead (leading : Bytes) (hleading : ∀ b ∈ leading, isSpaceOrTab b = true) : RequestHead where
  method := "GET "
  target := toByteArray "/"
  minor := 49
  before := []
  hostField :=
    { name := toByteArray "Host", leading, host := .named (toByteArray "example.com") (forall_mem_of_all (by decide))
      port := none, trailing := [], isHost := by unfold isHostName; decide, leading_blank := hleading
      port_digits := nofun, trailing_blank := nofun }
  after := []
  method_mem := by decide
  target_ne := by decide
  target_visible := forall_mem_of_all (by decide)
  minor_digit := by decide
  oneHost := nofun

theorem extractDomain_getHead :
    extractDomain sampleTexts (getHead [32] (forall_mem_of_all (by decide))).bytes 37 =
        some (String.ofList ((getHead [32] (forall_mem_of_all (by decide))).hostField.host.bytes.map asciiChar)) ↔
      (getHead [32] (forall_mem_of_all (by decide))).Plain :=
  extractDomain_head_iff sampleTexts (getHead [32] (forall_mem_of_all (by decide))) (by decide)

theorem not_extractDomain_getHead :
    ¬∀ (texts : Texts) (head : RequestHead) (firstChunk : Bytes) (length : Nat), head.bytes.length ≤ 16384 →
      firstChunk.take length = head.bytes →
      extractDomain texts firstChunk length = some (String.ofList (head.hostField.host.bytes.map asciiChar)) := by
  intro h
  have hfound := h sampleTexts (getHead [] nofun) (getHead [] nofun).bytes 36 (by decide) (by decide)
  have hnone : extractDomain sampleTexts (getHead [] nofun).bytes 36 = none := by decide
  rw [hnone] at hfound
  cases hfound

end ToInet.Byedpi.ByeDpiRouter
