import Mathlib.Data.List.TakeDrop
import Mathlib.Data.List.TakeWhile
import ToInet.Lib.Split
import ToInet.Lib.Strtol

-- URIs as a parser of RFC 2396 reads them, with an authority that is a host and a port where it can be.
namespace ToInet.Lib

namespace Uri

def isAlpha (c : Char) : Bool := c.isAlpha

def isAlphanum (c : Char) : Bool := c.isAlpha || c.isDigit

-- A character beyond ASCII that is neither a control nor a space.
def isOther (c : Char) : Bool :=
  let n := c.toNat
  0x9F < n ∧ n ≠ 0xA0 ∧ n ≠ 0x1680 ∧ ¬(0x2000 ≤ n ∧ n ≤ 0x200A) ∧ n ≠ 0x2028 ∧ n ≠ 0x2029 ∧ n ≠ 0x202F ∧
    n ≠ 0x205F ∧ n ≠ 0x3000

def isUnreserved (c : Char) : Bool := isAlphanum c || c ∈ ['_', '-', '!', '.', '~', '\'', '(', ')', '*'] || isOther c

def isUserInfo (c : Char) : Bool := isUnreserved c || c ∈ [';', ':', '&', '=', '+', '$', ',']

def isRegName (c : Char) : Bool := isUnreserved c || c ∈ ['$', ',', ';', ':', '@', '&', '=', '+']

def isPath (c : Char) : Bool := isUnreserved c || c ∈ [':', '@', '&', '=', '+', '$', ',', ';', '/']

def isUric (c : Char) : Bool :=
  isUnreserved c || c ∈ [';', '/', '?', ':', '@', '&', '=', '+', '$', ',', '[', ']']

def isScheme : List Char → Bool
  | [] => false
  | c :: text => isAlpha c && text.all fun c => isAlphanum c || c ∈ ['+', '-', '.']

def isHex (c : Char) : Bool := c.isDigit || 'a' ≤ c ∧ c ≤ 'f' || 'A' ≤ c ∧ c ≤ 'F'

-- Characters of a kind, and escapes.
def legal (kind : Char → Bool) : List Char → Bool
  | '%' :: a :: b :: text => isHex a && isHex b && legal kind text
  | c :: text => kind c && legal kind text
  | [] => true

structure Authority where
  userInfo : Option (List Char)
  host : Option (List Char)
  port : Int

end Uri

structure Uri where
  scheme : Option (List Char)
  authority : Uri.Authority

namespace Uri

-- The user info with its escapes decoded.
def getUserInfo (decode : List Char → List Char) (uri : Uri) : Option (List Char) :=
  uri.authority.userInfo.map fun text => if '%' ∈ text then decode text else text

-- The largest port that is read.
def maxPort : Nat := 2 ^ 31 - 1

-- Behind the host: nothing, or a port, which may be empty.
def readPort : List Char → Option Int
  | [] => some (-1)
  | [':'] => some (-1)
  | ':' :: digits =>
      if digits.all Char.isDigit ∧ Nat.ofDigitChars 10 digits 0 ≤ maxPort then
        some (Nat.ofDigitChars 10 digits 0)
      else none
  | _ => none

section

-- The grammar of hosts, names and addresses.
variable (isHost : List Char → Bool)

-- A host in brackets ends with them, and any other in front of the first colon.
def cutHost (text : List Char) : List Char × List Char :=
  if text.head? = some '[' then
    ((text.takeWhile (· ≠ ']')) ++ (text.dropWhile (· ≠ ']')).take 1, (text.dropWhile (· ≠ ']')).drop 1)
  else text.span (· ≠ ':')

def readHostPort (text : List Char) : Option (List Char × Int) :=
  if isHost (cutHost text).1 then (readPort (cutHost text).2).map fun port => ((cutHost text).1, port)
  else none

def readServer (text : List Char) : Option Authority :=
  if '@' ∈ text then
    let userInfo := text.takeWhile (· ≠ '@')
    if legal isUserInfo userInfo then
      (readHostPort isHost ((text.dropWhile (· ≠ '@')).drop 1)).map fun (host, port) =>
        { userInfo := some userInfo, host := some host, port }
    else none
  else (readHostPort isHost text).map fun (host, port) => { userInfo := none, host := some host, port }

-- An authority that is no server is a registered name.
def readAuthority (text : List Char) : Option Authority :=
  match readServer isHost text with
  | some authority => some authority
  | none => if legal isRegName text then some { userInfo := none, host := none, port := -1 } else none

def noAuthority : Authority := { userInfo := none, host := none, port := -1 }

-- The path, the query and the fragment.
def legalPath (text : List Char) : Bool :=
  let path := text.takeWhile fun c => c ≠ '?' ∧ c ≠ '#'
  let behind := text.dropWhile fun c => c ≠ '?' ∧ c ≠ '#'
  legal isPath path &&
    match behind with
    | '?' :: query =>
        legal isUric (query.takeWhile (· ≠ '#')) && legal isUric ((query.dropWhile (· ≠ '#')).drop 1)
    | _ :: fragment => legal isUric fragment
    | [] => true

def isEnd (c : Char) : Bool := c = '/' || c = '?' || c = '#'

def readHierarchical : List Char → Option Authority
  | '/' :: '/' :: text =>
      let authority := text.takeWhile fun c => !isEnd c
      let path := text.dropWhile fun c => !isEnd c
      if authority = [] then if path ≠ [] ∧ legalPath path then some noAuthority else none
      else if legalPath path then readAuthority isHost authority
      else none
  | text => if legalPath text then some noAuthority else none

-- none is a URISyntaxException.
def parse (text : List Char) : Option Uri :=
  let front := text.takeWhile fun c => !(c = ':' || isEnd c)
  match text.dropWhile fun c => !(c = ':' || isEnd c) with
  | ':' :: behind =>
      if isScheme front then
        if behind.head? = some '/' then
          (readHierarchical isHost behind).map fun authority => { scheme := some front, authority }
        else
          let opaquePart := behind.takeWhile (· ≠ '#')
          if opaquePart ≠ [] ∧ legal isUric opaquePart ∧ legal isUric ((behind.dropWhile (· ≠ '#')).drop 1) then
            some { scheme := some front, authority := noAuthority }
          else none
      else none
  | _ => (readHierarchical isHost text).map fun authority => { scheme := none, authority }

theorem legal_of_forall {kind : Char → Bool} {text : List Char} (hpercent : kind '%' = false)
    (h : ∀ c ∈ text, kind c = true) : legal kind text = true := by
  induction text with
  | nil => rfl
  | cons c text ih =>
      have hc := h c List.mem_cons_self
      have hne : c ≠ '%' := by
        rintro rfl
        rw [hpercent] at hc
        cases hc
      rw [legal, hc, Bool.true_and]
      · exact ih fun c' hc' => h c' (List.mem_cons_of_mem _ hc')
      · intro a b rest hpercent
        exact absurd hpercent hne

variable {isHost} {scheme userInfo text : List Char}

theorem readServer_userInfo (huser : ∀ c ∈ userInfo, isUserInfo c = true) :
    readServer isHost (userInfo ++ '@' :: text) = (readHostPort isHost text).map fun (host, port) =>
      { userInfo := some userInfo, host := some host, port } := by
  have hat : ∀ c ∈ userInfo, decide (c ≠ '@') = true := by
    intro c hc
    refine decide_eq_true ?_
    rintro rfl
    have h := huser '@' hc
    revert h
    decide
  have htake : (userInfo ++ '@' :: text).takeWhile (· ≠ '@') = userInfo := by
    rw [List.takeWhile_append_of_pos hat, List.takeWhile_cons_of_neg (by decide), List.append_nil]
  have hdrop : (userInfo ++ '@' :: text).dropWhile (· ≠ '@') = '@' :: text := by
    rw [List.dropWhile_append_of_pos hat, List.dropWhile_cons_of_neg (by decide)]
  rw [readServer, if_pos (List.mem_append_right _ List.mem_cons_self)]
  simp only [htake, hdrop, legal_of_forall (by decide) huser, if_true]
  rfl

theorem not_isEnd_of_isUserInfo {c : Char} (hc : isUserInfo c = true) : isEnd c = false := by
  by_contra h
  simp only [isEnd, Bool.or_eq_true, decide_eq_true_eq, Bool.not_eq_false] at h
  rcases h with (rfl | rfl) | rfl <;> exact absurd hc (by decide)

-- The part of a text up to the end of its authority.
def cutAuthority (text : List Char) : List Char := text.takeWhile fun c => !isEnd c

theorem readHierarchical_userInfo (huser : ∀ c ∈ userInfo, isUserInfo c = true) :
    readHierarchical isHost ('/' :: '/' :: (userInfo ++ '@' :: text)) =
      if legalPath (text.dropWhile fun c => !isEnd c) then
        readAuthority isHost (userInfo ++ '@' :: cutAuthority text)
      else none := by
  have hpos : ∀ c ∈ userInfo, (!isEnd c) = true := fun c hc => by rw [not_isEnd_of_isUserInfo (huser c hc)]; rfl
  have htake : (userInfo ++ '@' :: text).takeWhile (fun c => !isEnd c) = userInfo ++ '@' :: cutAuthority text := by
    rw [List.takeWhile_append_of_pos hpos, List.takeWhile_cons_of_pos (by decide)]
    rfl
  have hdrop : (userInfo ++ '@' :: text).dropWhile (fun c => !isEnd c) = text.dropWhile fun c => !isEnd c := by
    rw [List.dropWhile_append_of_pos hpos, List.dropWhile_cons_of_pos (by decide)]
  have hne : userInfo ++ '@' :: cutAuthority text ≠ [] := List.append_ne_nil_of_right_ne_nil _ (List.cons_ne_nil _ _)
  rw [readHierarchical]
  simp only [htake, hdrop, hne, if_false]

theorem isSchemeChar_of_mem (hscheme : isScheme scheme = true) {c : Char} (hc : c ∈ scheme) :
    (isAlphanum c || c ∈ ['+', '-', '.']) = true := by
  cases scheme with
  | nil => cases hc
  | cons first rest =>
      obtain ⟨hfirst, hrest⟩ := Bool.and_eq_true_iff.mp hscheme
      obtain rfl | hmem := List.mem_cons.mp hc
      · exact Bool.or_eq_true_iff.mpr (.inl (Bool.or_eq_true_iff.mpr (.inl hfirst)))
      · exact List.all_eq_true.mp hrest c hmem

theorem parse_hierarchical (hscheme : isScheme scheme = true) :
    parse isHost (scheme ++ ':' :: '/' :: text) =
      (readHierarchical isHost ('/' :: text)).map fun authority => { scheme := some scheme, authority } := by
  have hpos : ∀ c ∈ scheme, (!(decide (c = ':') || isEnd c)) = true := by
    intro c hc
    have hletter := isSchemeChar_of_mem hscheme hc
    by_contra h
    simp only [isEnd, Bool.not_eq_true', Bool.not_eq_false, Bool.or_eq_true, decide_eq_true_eq] at h
    rcases h with rfl | (rfl | rfl) | rfl <;> exact absurd hletter (by decide)
  have htake : (scheme ++ ':' :: '/' :: text).takeWhile (fun c => !(decide (c = ':') || isEnd c)) = scheme := by
    rw [List.takeWhile_append_of_pos hpos, List.takeWhile_cons_of_neg (by decide), List.append_nil]
  have hdrop : (scheme ++ ':' :: '/' :: text).dropWhile (fun c => !(decide (c = ':') || isEnd c)) =
      ':' :: '/' :: text := by
    rw [List.dropWhile_append_of_pos hpos, List.dropWhile_cons_of_neg (by decide)]
  rw [parse, hdrop]
  simp only [htake, hscheme, if_true, List.head?_cons]

-- A user info is read where what follows it is a host with its port.
theorem parse_userInfo (hscheme : isScheme scheme = true) (huser : ∀ c ∈ userInfo, isUserInfo c = true)
    {host : List Char} {port : Int} (hpath : legalPath (text.dropWhile fun c => !isEnd c) = true)
    (hhost : readHostPort isHost (cutAuthority text) = some (host, port)) :
    parse isHost (scheme ++ ':' :: '/' :: '/' :: (userInfo ++ '@' :: text)) =
      some { scheme := some scheme, authority := { userInfo := some userInfo, host := some host, port } } := by
  rw [parse_hierarchical hscheme, readHierarchical_userInfo huser, if_pos hpath, readAuthority,
    readServer_userInfo huser, hhost]
  rfl

theorem exists_of_parse (hscheme : isScheme scheme = true) (huser : ∀ c ∈ userInfo, isUserInfo c = true) {uri : Uri}
    (h : parse isHost (scheme ++ ':' :: '/' :: '/' :: (userInfo ++ '@' :: text)) = some uri)
    (hsome : uri.authority.userInfo ≠ none) :
    ∃ host port, readHostPort isHost (cutAuthority text) = some (host, port) ∧
      uri = { scheme := some scheme, authority := { userInfo := some userInfo, host := some host, port } } := by
  rw [parse_hierarchical hscheme, readHierarchical_userInfo huser, readAuthority, readServer_userInfo huser] at h
  obtain ⟨authority, hauthority, rfl⟩ := Option.map_eq_some_iff.mp h
  split at hauthority
  · cases hhost : readHostPort isHost (cutAuthority text) with
    | some pair =>
        rw [hhost] at hauthority
        exact ⟨pair.1, pair.2, rfl, by rw [← Option.some.inj hauthority]⟩
    | none =>
        rw [hhost] at hauthority
        simp only [Option.map_none] at hauthority
        split at hauthority
        · exact absurd (congrArg Authority.userInfo (Option.some.inj hauthority)).symm hsome
        · cases hauthority
  · cases hauthority

theorem cutHost_append (text : List Char) : (cutHost text).1 ++ (cutHost text).2 = text := by
  unfold cutHost
  split
  · rw [List.append_assoc, List.take_append_drop, List.takeWhile_append_dropWhile]
  · rw [List.span_eq_takeWhile_dropWhile, List.takeWhile_append_dropWhile]

theorem mem_of_readHostPort {host : List Char} {port : Int} (h : readHostPort isHost text = some (host, port)) :
    ∀ c ∈ host, c ∈ text := by
  unfold readHostPort at h
  split at h
  · obtain ⟨_, _, hpair⟩ := Option.map_eq_some_iff.mp h
    rw [← (Prod.mk.inj hpair).1]
    intro c hc
    rw [← cutHost_append text]
    exact List.mem_append_left _ hc
  · cases h

end

end Uri

end ToInet.Lib
