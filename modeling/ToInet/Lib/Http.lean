import ToInet.Lib.Charset
import ToInet.Lib.IpLiteral

-- The heads of HTTP/1.1 requests as RFC 9112 has them, and authorities as RFC 3986 has them. A byte
-- is given by the character of its number.
namespace ToInet.Lib.Http

def isTokenChar (c : Char) : Bool :=
  c.isAlphanum || c.toNat ∈ [33, 35, 36, 37, 38, 39, 42, 43, 45, 46, 94, 95, 96, 124, 126]

def isVisible (c : Char) : Bool := 33 ≤ c.toNat ∧ c.toNat ≤ 126

def isBlankChar (c : Char) : Bool := c = ' ' ∨ c = '\t'

def isFieldChar (c : Char) : Bool := isBlankChar c || 33 ≤ c.toNat && c.toNat ≠ 127

-- Unreserved characters and sub-delimiters.
def isNameChar (c : Char) : Bool :=
  c.isAlphanum || c.toNat ∈ [33, 36, 38, 39, 40, 41, 42, 43, 44, 45, 46, 59, 61, 95, 126]

inductive Host where
  | ipv4 (bytes : Bytes)
  | ipv6 (bytes : Bytes)
  | name (bytes : Bytes)
deriving DecidableEq

-- The bytes that a registered name stands for.
def regName : List Char → Option Bytes
  | [] => some []
  | '%' :: high :: low :: text => do
      let high ← digitVal high
      let low ← digitVal low
      let rest ← regName text
      return UInt8.ofNat (16 * high + low) :: rest
  | c :: text => if isNameChar c then (regName text).map fun rest => UInt8.ofNat c.toNat :: rest else none

-- What can be read as an IPv4 address is one.
def host (text : List Char) : Option Host :=
  match IpLiteral.ipv4 text with
  | some bytes => some (.ipv4 bytes)
  | none => if text = [] then none else (regName text).map .name

def port (text : List Char) : Option Nat :=
  let n := Nat.ofDigitChars 10 text 0
  if text ≠ [] ∧ text.all Char.isDigit ∧ n < 65536 then some n else none

-- A host and a port. An IPv6 address stands in brackets.
def authority : List Char → Option (Host × Nat)
  | '[' :: text =>
      match text.dropWhile (· ≠ ']') with
      | ']' :: ':' :: digits => do
          let bytes ← IpLiteral.ipv6 (text.takeWhile (· ≠ ']'))
          let port ← port digits
          return (.ipv6 bytes, port)
      | _ => none
  | text =>
      match text.dropWhile (· ≠ ':') with
      | ':' :: digits => do
          let host ← host (text.takeWhile (· ≠ ':'))
          let port ← port digits
          return (host, port)
      | _ => none

structure Head where
  method : List Char
  target : List Char
  fields : List (List Char × List Char)
deriving DecidableEq

-- The lines up to an empty one, and what comes behind it. CR and LF stand together at the end of a line.
def headLines (ended : List (List Char)) (line : List Char) : List Char → Option (List (List Char) × List Char)
  | '\r' :: '\n' :: text => if line = [] then some (ended, text) else headLines (ended ++ [line]) [] text
  | c :: text => if c = '\r' ∨ c = '\n' then none else headLines ended (line ++ [c]) text
  | [] => none

def requestLine (line : List Char) : Option (List Char × List Char) :=
  match line.splitOn ' ' with
  | [method, target, version] =>
      if method ≠ [] ∧ method.all isTokenChar ∧ target ≠ [] ∧ target.all isVisible ∧ version = "HTTP/1.1".toList then
        some (method, target)
      else none
  | _ => none

def field (line : List Char) : Option (List Char × List Char) :=
  let name := line.takeWhile (· ≠ ':')
  match line.dropWhile (· ≠ ':') with
  | ':' :: value =>
      if name ≠ [] ∧ name.all isTokenChar ∧ value.all isFieldChar then
        some (name, ((value.dropWhile isBlankChar).reverse.dropWhile isBlankChar).reverse)
      else none
  | _ => none

def parse (text : List Char) : Option (Head × List Char) := do
  let (lines, rest) ← headLines [] [] text
  let (method, target) ← requestLine (lines.headD [])
  let fields ← lines.tail.mapM field
  return ({ method, target, fields }, rest)

theorem isNameChar_range {c : Char} (h : isNameChar c = true) : 33 ≤ c.toNat ∧ c.toNat ≤ 126 := by
  have hnat : c.val.toNat = c.toNat := rfl
  have hranges : 'A'.val.toNat = 65 ∧ 'Z'.val.toNat = 90 ∧ 'a'.val.toNat = 97 ∧ 'z'.val.toNat = 122 ∧
      '0'.val.toNat = 48 ∧ '9'.val.toNat = 57 := by decide
  simp only [isNameChar, Char.isAlphanum] at h
  delta Char.isAlpha Char.isUpper Char.isLower at h
  simp only [Char.isDigit, ge_iff_le, UInt32.le_iff_toNat_le, Bool.or_eq_true, Bool.and_eq_true, decide_eq_true_eq,
    List.mem_cons, List.not_mem_nil, or_false, hnat] at h
  omega

theorem isVisible_of_isNameChar {c : Char} (h : isNameChar c = true) : isVisible c = true := by
  simpa [isVisible] using isNameChar_range h

theorem isNameChar_of_isDigit {c : Char} (h : c.isDigit) : isNameChar c = true := by
  simp [isNameChar, Char.isAlphanum, h]

-- An escape takes three characters for one byte.
theorem length_regName {text : List Char} {bytes : Bytes} (h : regName text = some bytes) :
    bytes.length + 2 * text.count '%' = text.length ∧ ∀ c ∈ text, c.toNat < 128 := by
  induction text using regName.induct generalizing bytes with
  | case1 =>
      obtain rfl := Option.some.inj h
      exact ⟨rfl, nofun⟩
  | case2 high low text ih =>
      rw [regName] at h
      obtain ⟨high', hhigh, h⟩ := Option.bind_eq_some_iff.mp h
      obtain ⟨low', hlow, h⟩ := Option.bind_eq_some_iff.mp h
      obtain ⟨rest, hrest, h⟩ := Option.bind_eq_some_iff.mp h
      obtain rfl := Option.some.inj h
      obtain ⟨hlength, hlow'⟩ := ih hrest
      have hh := IpLiteral.digitVal_range (Option.isSome_of_eq_some hhigh)
      have hl := IpLiteral.digitVal_range (Option.isSome_of_eq_some hlow)
      have hne : high ≠ '%' ∧ low ≠ '%' := by
        constructor
        · rintro rfl
          exact absurd hh.1 (by decide)
        · rintro rfl
          exact absurd hl.1 (by decide)
      refine ⟨?_, ?_⟩
      · rw [List.count_cons_self, List.count_cons_of_ne hne.1, List.count_cons_of_ne hne.2]
        simp only [List.length_cons]
        omega
      · intro c hc
        simp only [List.mem_cons] at hc
        obtain rfl | rfl | rfl | hmem := hc
        · decide
        · omega
        · omega
        · exact hlow' c hmem
  | case3 c text hne hname ih =>
      rw [regName.eq_3 _ _ hne, if_pos hname] at h
      obtain ⟨rest, hrest, rfl⟩ := Option.map_eq_some_iff.mp h
      obtain ⟨hlength, hlow⟩ := ih hrest
      have hrange := isNameChar_range hname
      have hc : c ≠ '%' := by
        rintro rfl
        exact absurd hname (by decide)
      refine ⟨?_, List.forall_mem_cons.mpr ⟨by omega, hlow⟩⟩
      rw [List.count_cons_of_ne hc, List.length_cons, List.length_cons]
      omega
  | case4 c text hne hname =>
      rw [regName.eq_3 _ _ hne, if_neg hname] at h
      cases h

def byteOf (c : Char) : UInt8 := UInt8.ofNat c.toNat

theorem regName_cons {c : Char} (h : isNameChar c = true) (text : List Char) :
    regName (c :: text) = (regName text).map fun rest => byteOf c :: rest := by
  have hne : c ≠ '%' := by
    rintro rfl
    exact absurd h (by decide)
  rw [regName.eq_3 _ _ fun high low rest hc => absurd hc hne, if_pos h]
  rfl

theorem regName_of_names {text : List Char} (h : ∀ c ∈ text, isNameChar c = true) :
    regName text = some (text.map byteOf) := by
  induction text with
  | nil => rfl
  | cons c text ih =>
      rw [regName_cons (h c List.mem_cons_self), ih fun d hd => h d (List.mem_cons_of_mem c hd)]
      rfl

-- Without escapes a name stands for itself.
theorem names_of_regName {text : List Char} {bytes : Bytes} (hescape : '%' ∉ text) (h : regName text = some bytes) :
    ∀ c ∈ text, isNameChar c = true := by
  induction text generalizing bytes with
  | nil => nofun
  | cons c text ih =>
      rw [List.mem_cons, not_or] at hescape
      rw [regName.eq_3 _ _ fun high low rest hc => absurd hc.symm hescape.1] at h
      split at h
      · rename_i hname
        obtain ⟨rest, hrest, _⟩ := Option.map_eq_some_iff.mp h
        exact List.forall_mem_cons.mpr ⟨hname, ih hescape.2 hrest⟩
      · cases h

theorem port_decimal {n : Nat} (h : n < 65536) : port (Nat.toDigits 10 n) = some n := by
  have hdigits : (Nat.toDigits 10 n).all Char.isDigit = true :=
    List.all_eq_true.mpr fun c hc => isDigit_of_mem_toDigits hc
  simp only [port, Nat.ofDigitChars_ten_toDigits, hdigits, h, Nat.toDigits_ne_nil, ne_eq, not_false_eq_true,
    and_self, if_true]

-- A name or an IPv4 address in front of the port.
theorem authority_append {front : List Char} (hcolon : ':' ∉ front) (hbracket : front.head? ≠ some '[')
    (hne : front ≠ []) (digits : List Char) :
    authority (front ++ ':' :: digits) = do
      let host ← host front
      let port ← port digits
      return (host, port) := by
  cases front with
  | nil => exact absurd rfl hne
  | cons c front =>
      have hc : c ≠ '[' := fun hsame => hbracket (congrArg some hsame)
      unfold authority
      split
      · next heq => exact absurd (List.cons.inj heq).1 hc
      · rw [dropWhile_ne hcolon, takeWhile_ne hcolon]
        rfl

theorem authority_eq_name {text : List Char} {bytes : Bytes} {port : Nat}
    (h : authority text = some (.name bytes, port)) :
    ∃ front digits, text = front ++ ':' :: digits ∧ ':' ∉ front ∧ host front = some (.name bytes) := by
  unfold authority at h
  split at h
  · split at h
    · obtain ⟨_, _, h⟩ := Option.bind_eq_some_iff.mp h
      obtain ⟨_, _, h⟩ := Option.bind_eq_some_iff.mp h
      cases h
    · cases h
  · split at h
    · next digits hdrop =>
        obtain ⟨found, hhost, h⟩ := Option.bind_eq_some_iff.mp h
        obtain ⟨_, _, h⟩ := Option.bind_eq_some_iff.mp h
        obtain ⟨rfl, _⟩ := Prod.mk.inj (Option.some.inj h)
        refine ⟨text.takeWhile (· ≠ ':'), digits, ?_, fun hmem => ?_, hhost⟩
        · rw [← hdrop, List.takeWhile_append_dropWhile]
        · simpa using List.mem_takeWhile_imp hmem
    · cases h

theorem authority_eq_ipv6 {text : List Char} {bytes : Bytes} {port : Nat}
    (h : authority text = some (.ipv6 bytes, port)) : text.head? = some '[' := by
  unfold authority at h
  split at h
  · rfl
  · split at h
    · obtain ⟨found, hhost, h⟩ := Option.bind_eq_some_iff.mp h
      obtain ⟨_, _, h⟩ := Option.bind_eq_some_iff.mp h
      obtain ⟨rfl, _⟩ := Prod.mk.inj (Option.some.inj h)
      unfold host at hhost
      split at hhost
      · cases hhost
      · split at hhost
        · cases hhost
        · obtain ⟨_, _, h⟩ := Option.map_eq_some_iff.mp hhost
          cases h
    · cases h

theorem requestLine_eq_some {line method target : List Char} (h : requestLine line = some (method, target)) :
    line = method ++ ' ' :: (target ++ ' ' :: "HTTP/1.1".toList) := by
  unfold requestLine at h
  split at h
  · next hsplit =>
      split at h
      · next hparts =>
          obtain ⟨rfl, rfl⟩ := Prod.mk.inj (Option.some.inj h)
          rw [← join_splitOn ' ' line, hsplit, hparts.2.2.2.2]
          simp [List.intercalate_cons_cons, List.intercalate_singleton]
      · cases h
  · cases h

theorem requestLine_append {method target : List Char} (hmethod : method ≠ []) (htoken : method.all isTokenChar = true)
    (htarget : target ≠ []) (hvisible : target.all isVisible = true) :
    requestLine (method ++ ' ' :: (target ++ ' ' :: "HTTP/1.1".toList)) = some (method, target) := by
  have hspace {text : List Char} {test : Char → Bool} (hall : text.all test = true) (hblank : test ' ' = false) :
      ' ' ∉ text := by
    intro hmem
    rw [List.all_eq_true.mp hall ' ' hmem] at hblank
    cases hblank
  have hversion : "HTTP/1.1".toList.splitOn ' ' = ["HTTP/1.1".toList] := List.splitOn_eq_singleton (by decide)
  have hsplit : (method ++ ' ' :: (target ++ ' ' :: "HTTP/1.1".toList)).splitOn ' ' =
      [method, target, "HTTP/1.1".toList] := by
    rw [List.splitOn_append_cons_self_of_not_mem (hspace htoken (by decide)),
      List.splitOn_append_cons_self_of_not_mem (hspace hvisible (by decide)), hversion]
  simp only [requestLine, hsplit, hmethod, htoken, htarget, hvisible, ne_eq, not_false_eq_true, and_self, if_true]

theorem headLines_text {line : List Char} (h : ∀ c ∈ line, c ≠ '\r' ∧ c ≠ '\n') (ended : List (List Char))
    (front text : List Char) : headLines ended front (line ++ text) = headLines ended (front ++ line) text := by
  induction line generalizing front with
  | nil => rw [List.nil_append, List.append_nil]
  | cons c line ih =>
      obtain ⟨hcr, hlf⟩ := h c List.mem_cons_self
      rw [List.cons_append, headLines.eq_2 _ _ _ _ fun rest hc => absurd hc hcr, if_neg (not_or.mpr ⟨hcr, hlf⟩),
        ih fun d hd => h d (List.mem_cons_of_mem c hd), List.append_assoc, List.singleton_append]

theorem headLines_line {line : List Char} (h : ∀ c ∈ line, c ≠ '\r' ∧ c ≠ '\n') (hne : line ≠ [])
    (ended : List (List Char)) (text : List Char) :
    headLines ended [] (line ++ '\r' :: '\n' :: text) = headLines (ended ++ [line]) [] text := by
  rw [headLines_text h, List.nil_append, headLines, if_neg hne]

theorem headLines_ended {ended lines : List (List Char)} {front text rest : List Char}
    (h : headLines ended front text = some (lines, rest)) : ended <+: lines := by
  induction ended, front, text using headLines.induct with
  | case1 ended text =>
      rw [headLines, if_pos rfl] at h
      obtain ⟨rfl, _⟩ := Prod.mk.inj (Option.some.inj h)
      exact List.prefix_rfl
  | case2 ended front text hne ih =>
      rw [headLines, if_neg hne] at h
      exact (List.prefix_append _ _).trans (ih h)
  | case3 ended front c text hother hbreak =>
      rw [headLines.eq_2 _ _ _ _ hother, if_pos hbreak] at h
      cases h
  | case4 ended front c text hother hbreak ih =>
      rw [headLines.eq_2 _ _ _ _ hother, if_neg hbreak] at h
      exact ih h
  | case5 => cases h

-- A head begins with its first line.
theorem headLines_first {lines : List (List Char)} {front text rest : List Char}
    (h : headLines [] front text = some (lines, rest)) :
    ∃ line more, text = line ++ '\r' :: '\n' :: more ∧ lines.headD [] = front ++ line := by
  generalize hended : ([] : List (List Char)) = ended at h
  induction ended, front, text using headLines.induct with
  | case1 ended text =>
      rw [headLines, if_pos rfl] at h
      obtain ⟨rfl, _⟩ := Prod.mk.inj (Option.some.inj h)
      exact ⟨[], text, rfl, by rw [← hended]; rfl⟩
  | case2 ended front text hne ih =>
      rw [headLines, if_neg hne, ← hended] at h
      obtain ⟨later, rfl⟩ := headLines_ended h
      exact ⟨[], text, rfl, (List.append_nil front).symm⟩
  | case3 ended front c text hother hbreak =>
      rw [headLines.eq_2 _ _ _ _ hother, if_pos hbreak] at h
      cases h
  | case4 ended front c text hother hbreak ih =>
      rw [headLines.eq_2 _ _ _ _ hother, if_neg hbreak] at h
      obtain ⟨line, more, rfl, hfirst⟩ := ih hended h
      exact ⟨c :: line, more, rfl, by rw [hfirst, List.append_assoc, List.singleton_append]⟩
  | case5 => cases h

theorem field_append {name value : List Char} (hname : name ≠ []) (htoken : name.all isTokenChar = true)
    (hvalue : value.all isVisible = true) : field (name ++ ':' :: ' ' :: value) = some (name, value) := by
  have hcolon : ':' ∉ name := by
    intro hmem
    exact absurd (List.all_eq_true.mp htoken ':' hmem) (by decide)
  have hblank : ∀ c ∈ value, isBlankChar c = false := by
    intro c hc
    have hvisible := List.all_eq_true.mp hvalue c hc
    by_contra hnot
    rw [Bool.not_eq_false] at hnot
    obtain rfl | rfl : c = ' ' ∨ c = '\t' := by simpa [isBlankChar] using hnot
    · exact absurd hvisible (by decide)
    · exact absurd hvisible (by decide)
  have hfield : (' ' :: value).all isFieldChar = true := by
    refine List.all_eq_true.mpr (List.forall_mem_cons.mpr ⟨by decide, fun c hc => ?_⟩)
    have hvisible : 33 ≤ c.toNat ∧ c.toNat ≤ 126 := by
      simpa [isVisible] using List.all_eq_true.mp hvalue c hc
    have hne : c.toNat ≠ 127 := by omega
    simp [isFieldChar, hvisible.1, hne]
  have hkeep : ∀ {text : List Char}, (∀ c ∈ text, isBlankChar c = false) → text.dropWhile isBlankChar = text := by
    intro text htext
    cases text with
    | nil => rfl
    | cons c text => rw [List.dropWhile_cons_of_neg (by rw [htext c List.mem_cons_self]; decide)]
  have hdrop : (' ' :: value).dropWhile isBlankChar = value := by
    rw [List.dropWhile_cons_of_pos (by decide), hkeep hblank]
  simp only [field, dropWhile_ne hcolon, takeWhile_ne hcolon, hname, htoken, hfield, hdrop, ne_eq, not_false_eq_true,
    and_self, if_true, hkeep fun c hc => hblank c (List.mem_reverse.mp hc), List.reverse_reverse]

theorem parse_eq_some {text rest : List Char} {head : Head} (h : parse text = some (head, rest)) :
    ∃ more, text = head.method ++ ' ' :: (head.target ++ ' ' :: more) := by
  obtain ⟨⟨lines, _⟩, hlines, h⟩ := Option.bind_eq_some_iff.mp h
  obtain ⟨⟨method, target⟩, hrequest, h⟩ := Option.bind_eq_some_iff.mp h
  obtain ⟨fields, _, h⟩ := Option.bind_eq_some_iff.mp h
  obtain ⟨rfl, _⟩ := Prod.mk.inj (Option.some.inj h)
  obtain ⟨line, more, rfl, hfirst⟩ := headLines_first hlines
  rw [hfirst, List.nil_append] at hrequest
  rw [requestLine_eq_some hrequest]
  exact ⟨"HTTP/1.1".toList ++ '\r' :: '\n' :: more, by simp⟩

-- A request with one field is a whole head.
theorem parse_request {method target name value : List Char} (hmethod : method ≠ [])
    (hmethodToken : method.all isTokenChar = true) (htarget : target ≠ []) (hvisible : target.all isVisible = true)
    (hname : name ≠ []) (hnameToken : name.all isTokenChar = true) (hvalue : value.all isVisible = true) :
    parse (method ++ ' ' :: (target ++ ' ' :: "HTTP/1.1".toList) ++ '\r' :: '\n' ::
        (name ++ ':' :: ' ' :: value ++ ['\r', '\n', '\r', '\n'])) =
      some ({ method, target, fields := [(name, value)] }, []) := by
  have hbreak {text : List Char} {test : Char → Bool} (hall : text.all test = true) (hcr : test '\r' = false)
      (hlf : test '\n' = false) : ∀ c ∈ text, c ≠ '\r' ∧ c ≠ '\n' := by
    intro c hc
    have hyes := List.all_eq_true.mp hall c hc
    constructor
    · rintro rfl
      rw [hcr] at hyes
      cases hyes
    · rintro rfl
      rw [hlf] at hyes
      cases hyes
  have hfirst : ∀ c ∈ method ++ ' ' :: (target ++ ' ' :: "HTTP/1.1".toList), c ≠ '\r' ∧ c ≠ '\n' := by
    rw [List.forall_mem_append, List.forall_mem_cons, List.forall_mem_append, List.forall_mem_cons]
    exact ⟨hbreak hmethodToken rfl rfl, by decide, hbreak hvisible rfl rfl, by decide, forall_mem_of_all (by decide)⟩
  have hsecond : ∀ c ∈ name ++ ':' :: ' ' :: value, c ≠ '\r' ∧ c ≠ '\n' := by
    rw [List.forall_mem_append, List.forall_mem_cons, List.forall_mem_cons]
    exact ⟨hbreak hnameToken rfl rfl, by decide, by decide, hbreak hvalue rfl rfl⟩
  have hlines : headLines [] [] (method ++ ' ' :: (target ++ ' ' :: "HTTP/1.1".toList) ++ '\r' :: '\n' ::
      (name ++ ':' :: ' ' :: value ++ ['\r', '\n', '\r', '\n'])) =
      some ([method ++ ' ' :: (target ++ ' ' :: "HTTP/1.1".toList), name ++ ':' :: ' ' :: value], []) := by
    rw [headLines_line hfirst (List.append_ne_nil_of_left_ne_nil hmethod _),
      headLines_line hsecond (List.append_ne_nil_of_left_ne_nil hname _)]
    rfl
  simp only [parse, hlines, Option.bind_eq_bind, Option.bind_some, List.headD_cons, List.tail_cons,
    requestLine_append hmethod hmethodToken htarget hvisible, List.mapM_cons, List.mapM_nil,
    field_append hname hnameToken hvalue, Option.pure_def]

end ToInet.Lib.Http
