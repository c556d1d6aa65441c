import ToInet.Byedpi.Extend.CheckHost
import ToInet.Lib.Strtol

-- Whether an answer redirects the client to another host than the one it has asked for.
namespace ToInet.Byedpi.Packets

open ToInet.Lib ToInet.Byedpi.Extend

-- What has been received, and what stands behind it in the buffer.
structure Received where
  data : Bytes
  behind : Bytes

def Received.memory (received : Received) : Bytes := received.data ++ received.behind

-- The place of the first c among n bytes. none is a search that leaves the buffer.
def memchr (c : UInt8) (n : Nat) (memory : Bytes) : Option (Option Nat) :=
  match (memory.take n).idxOf? c with
  | some i => some (some i)
  | none => if memory.length < n then none else some none

-- strtol in base 10: the number, and what stands behind it. none is a number without an end.
def strtolTen (memory : Bytes) : Option (Int × Bytes) :=
  let signed := memory.dropWhile isSpace
  let negative := signed.head? = some 45
  let unsigned := if negative ∨ signed.head? = some 43 then signed.tail else signed
  let digits := unsigned.takeWhile isDigit
  let value : Int := digits.foldl (fun n c => 10 * n + (c.toNat - 48)) 0
  if unsigned.dropWhile isDigit = [] then none
  else if digits = [] then some (0, memory)
  else some (toLong (if negative then -value else value), unsigned.dropWhile isDigit)

-- "HTTP/1."
def httpVersion : Bytes := [72, 84, 84, 80, 47, 49, 46]

-- The line end is looked for up to 13 bytes behind what has been received.
def getHttpCode (resp : Received) : Option Int :=
  if resp.data.length < 13 then some 0
  else if httpVersion.isPrefixOf resp.data = false then some 0
  else
    match memchr 10 resp.data.length (resp.memory.drop 13) with
    | none => none
    | some none => some 0
    | some (some _) =>
        (strtolTen (resp.memory.drop 9)).map fun parsed =>
          if parsed.1 < 100 ∨ 511 < parsed.1 ∨ isSpace (parsed.2.headD 0) = false then 0 else parsed.1

-- "\nLocation:"
def locationName : Bytes := [10, 76, 111, 99, 97, 116, 105, 111, 110, 58]

-- "http://" and "https://"
def httpScheme : Bytes := [104, 116, 116, 112, 58, 47, 47]

def httpsScheme : Bytes := [104, 116, 116, 112, 115, 58, 47, 47]

-- How much of a location stands in front of its host.
def schemeLength (line : Bytes) (length : Nat) : Nat :=
  if 7 < length then if httpScheme.isPrefixOf line then 7 else if httpsScheme.isPrefixOf line then 8 else 0 else 0

-- The host that a redirect leads to. A line of spaces ends in front of its start, so that the search for its path has
-- no bound. some none is an answer without a location.
def locationHost (resp : Received) : Option (Option Bytes) :=
  if resp.data.length < 29 then some none
  else
    match getHttpCode resp with
    | none => none
    | some code =>
        if 308 < code ∨ code < 300 then some none
        else
          match strncasestr locationName resp.data with
          | none => some none
          | some offs =>
              if resp.data.length ≤ offs + 11 + 8 then some none
              else
                match (resp.data.drop (offs + 11)).idxOf? 10 with
                | none => some none
                | some eol =>
                    let lEnd := ((resp.data.take (offs + 11 + eol)).rdropWhile isSpace).length
                    let location := offs + 11 +
                      schemeLength (resp.memory.drop (offs + 11)) (lEnd - (offs + 11))
                    let host := resp.memory.drop location
                    (memchr 47 (if location ≤ lEnd then lEnd - location else 2 ^ 64 - 1) host).map fun path =>
                      some (host.take (path.getD (lEnd - location)))

-- The loop over the location: it is cut at its dots until it is as short as the host. none is the result 1.
def cutLocation (len : Nat) : Bool → Bytes → Option Bytes
  | start, [] => if start then some [] else none
  | start, c :: rest =>
      if start = true ∧ rest.length + 1 ≤ len then some (c :: rest) else cutLocation len (c = 46) rest

-- What the loop over the host ends with.
inductive CutHost where
  | outside
  | differs
  | cut (len : Nat) (host : Bytes)
deriving DecidableEq

-- The loop over the host, seen bytes behind its last dot. The length grows by the bytes in front of a dot and
-- shrinks by one for the dot.
def cutHost (size : Nat) : (len seen : Nat) → (memory : Bytes) → CutHost
  | len, seen, [] => if seen = 0 ∧ len ≤ size then .cut len [] else if seen < len then .outside else .differs
  | len, seen, c :: memory =>
      if seen = 0 ∧ len ≤ size then .cut len (c :: memory)
      else if len ≤ seen then .differs
      else if c = 46 then cutHost size (len + seen - 1) 0 memory
      else cutHost size len (seen + 1) memory

-- strncmp: whether the texts differ. none is a comparison that leaves the buffer.
def strncmp : Nat → Bytes → Bytes → Option Bool
  | 0, _, _ => some false
  | n + 1, c :: text, d :: other => if c ≠ d then some true else if c = 0 then some false else strncmp n text other
  | _, _, _ => none

def hostsDiffer (len : Nat) (memory location : Bytes) : Option Bool :=
  match cutLocation len true location with
  | none => some true
  | some location =>
      match cutHost location.length len 0 memory with
      | .outside => none
      | .differs => some true
      | .cut len host => if location.length ≠ len then some true else strncmp len host location

-- none is a run that reads behind the buffers.
def isHttpRedirect (req resp : Received) : Option Bool :=
  match parseHttp req.data with
  | some (host, .ofNat (len + 1)) =>
      match locationHost resp with
      | none => none
      | some none => some false
      | some (some location) => hostsDiffer (len + 1) (req.memory.drop host) location
  | _ => some false

variable {len seen size : Nat} {start : Bool} {host location memory text rest : Bytes}

theorem length_cutLocation (h : cutLocation len start text = some location) : location.length ≤ len := by
  induction text generalizing start with
  | nil =>
      rw [cutLocation] at h
      split at h
      case isTrue =>
        obtain rfl := Option.some.inj h
        exact Nat.zero_le len
      case isFalse => cases h
  | cons c rest ih =>
      rw [cutLocation] at h
      split at h
      case isTrue hshort =>
        obtain rfl := Option.some.inj h
        exact hshort.2
      case isFalse => exact ih h

-- What is left of a location has the length of the host exactly if it is the end of the location behind a dot.
theorem cutLocation_eq_some_iff (hlen : host.length = len) :
    cutLocation len start text = some host ↔ start = true ∧ text = host ∨ 46 :: host <:+ text := by
  induction text generalizing start with
  | nil =>
      rw [cutLocation, or_iff_left (by simp)]
      cases start <;> simp
  | cons c rest ih =>
      have htext : c :: rest = host → rest.length + 1 = len := by
        intro hsame
        rw [← hlen, ← hsame, List.length_cons]
      rw [cutLocation]
      split
      case isTrue hshort =>
        have hsuffix : ¬46 :: host <:+ c :: rest := by
          intro hend
          have hle := hend.length_le
          rw [List.length_cons, List.length_cons, hlen] at hle
          omega
        rw [or_iff_left hsuffix, Option.some_inj, and_iff_right hshort.1]
      case isFalse hlong =>
        have hwhole : ¬(start = true ∧ c :: rest = host) := fun h => hlong ⟨h.1, (htext h.2).le⟩
        rw [ih, or_iff_right hwhole, List.suffix_cons_iff, List.cons.injEq, decide_eq_true_iff, eq_comm (a := c),
          eq_comm (a := rest)]

-- No dot follows another.
def NoEmptyLabel (memory : Bytes) : Prop := ¬[46, 46] <:+: memory

theorem NoEmptyLabel.tail {c : UInt8} (h : NoEmptyLabel (c :: memory)) : NoEmptyLabel memory :=
  fun hpair => h (hpair.trans (List.suffix_cons c memory).isInfix)

theorem NoEmptyLabel.head {memory : Bytes} (h : NoEmptyLabel (46 :: memory)) : memory.head? ≠ some 46 := by
  intro hhead
  obtain ⟨rest, rfl⟩ := List.head?_eq_some_iff.mp hhead
  exact h (List.prefix_append [46, 46] rest).isInfix

-- A host that is longer than the location only grows from dot to dot.
theorem cutHost_of_lt (hsize : size < len) (hlabels : NoEmptyLabel memory)
    (hhead : seen = 0 → memory.head? ≠ some 46) :
    cutHost size len seen memory = .outside ∨ cutHost size len seen memory = .differs := by
  induction memory generalizing len seen with
  | nil =>
      rw [cutHost, if_neg fun h => absurd h.2 (Nat.not_le.mpr hsize)]
      split
      case isTrue => exact .inl rfl
      case isFalse => exact .inr rfl
  | cons c memory ih =>
      rw [cutHost, if_neg fun h => absurd h.2 (Nat.not_le.mpr hsize)]
      split
      case isTrue => exact .inr rfl
      case isFalse hmore =>
        split
        case isTrue hdot =>
          have hseen : seen ≠ 0 := by
            intro hzero
            apply hhead hzero
            rw [hdot, List.head?_cons]
          rw [hdot] at hlabels
          exact ih (by omega) hlabels.tail fun _ => hlabels.head
        case isFalse => exact ih hsize hlabels.tail fun hzero => absurd hzero (Nat.succ_ne_zero seen)

theorem cutHost_of_le (hle : len ≤ size) : cutHost size len 0 memory = .cut len memory := by
  cases memory with
  | nil => rw [cutHost, if_pos ⟨rfl, hle⟩]
  | cons c memory => rw [cutHost, if_pos ⟨rfl, hle⟩]

-- Without a zero byte texts are compared to their end.
theorem strncmp_eq_some_false_iff (hnul : 0 ∉ host) (hlen : location.length = host.length) :
    strncmp host.length (host ++ rest) location = some false ↔ location = host := by
  induction host generalizing location with
  | nil =>
      rw [List.length_eq_zero_iff.mp hlen]
      exact iff_of_true rfl rfl
  | cons c host ih =>
      obtain ⟨d, location, rfl⟩ := List.exists_cons_of_length_eq_add_one hlen
      rw [List.mem_cons, not_or] at hnul
      rw [List.length_cons, List.cons_append, strncmp, if_neg (Ne.symm hnul.1), List.cons.injEq]
      by_cases hsame : c = d
      · rw [if_neg (not_not.mpr hsame), ih hnul.2 (Nat.succ.inj hlen), and_iff_right hsame.symm]
      · rw [if_pos hsame]
        exact iff_of_false (by simp) fun h => hsame h.1.symm

theorem under_iff (hne : host ≠ []) : Under location host ↔ location = host ∨ 46 :: host <:+ location := by
  rw [Under, and_iff_right hne, List.IsSuffix]
  simp only [eq_comm]

-- A location is not told apart from the host exactly if it is the host or a subdomain of it.
theorem hostsDiffer_eq_some_false_iff (hne : host ≠ []) (hnul : 0 ∉ host)
    (hlabels : NoEmptyLabel (46 :: (host ++ rest))) :
    hostsDiffer host.length (host ++ rest) location = some false ↔ Under location host := by
  rw [under_iff hne]
  have hcut : cutLocation host.length true location = some host ↔ _ := cutLocation_eq_some_iff rfl
  rw [eq_self_iff_true, true_and] at hcut
  rw [← hcut, hostsDiffer]
  cases hlocation : cutLocation host.length true location with
  | none => simp
  | some short =>
      have hle := length_cutLocation hlocation
      rw [Option.some_inj]
      rcases Nat.lt_or_eq_of_le hle with hlt | heq
      · have hother : short ≠ host := by
          rintro rfl
          exact Nat.lt_irrefl _ hlt
        refine iff_of_false (fun hresult => ?_) hother
        have hlonger : cutHost short.length host.length 0 (host ++ rest) = .outside ∨ _ :=
          cutHost_of_lt hlt hlabels.tail fun _ => hlabels.head
        rcases hlonger with hended | hended
        · simp [hended] at hresult
        · simp [hended] at hresult
      · have hkept : cutHost short.length host.length 0 (host ++ rest) = .cut host.length (host ++ rest) :=
          cutHost_of_le heq.ge
        simp only [hkept]
        rw [if_neg (not_not.mpr heq)]
        exact strncmp_eq_some_false_iff hnul heq

theorem hostLength_le (line : Bytes) : hostLength line ≤ line.length := by
  have hcolon := (List.rdropWhile_prefix (· ≠ 58) line).length_le
  simp only [hostLength]
  split
  case isTrue => omega
  case isFalse => exact Nat.le_refl _

-- A redirect is reported to lead away from the host of the request, or else the search for the domain of the host
-- leaves the buffer, exactly if its location is neither the host nor a subdomain of it.
theorem isHttpRedirect_eq_some_false_iff {req resp : Received} {place : Nat}
    (hparse : parseHttp req.data = some (place, .ofNat (len + 1)))
    (hlocation : locationHost resp = some (some location))
    (hnul : 0 ∉ (req.data.drop place).take (len + 1)) (hlabels : NoEmptyLabel (46 :: req.memory.drop place)) :
    isHttpRedirect req resp = some false ↔ Under location ((req.data.drop place).take (len + 1)) := by
  obtain ⟨pre, name, blanks, value, tail, hline, hvalue⟩ := exists_hostLine hparse (by simp)
  have hhost := hline.parse hvalue
  rw [hparse, Option.some_inj, Prod.mk.injEq] at hhost
  have hlength : (hostLength (value.rdropWhile isSpace)) = len + 1 := Int.ofNat.inj hhost.2.symm
  have hle : len + 1 ≤ value.length := by
    have hshort := hostLength_le (value.rdropWhile isSpace)
    have hprefix := (List.rdropWhile_prefix isSpace value).length_le
    omega
  have hplace : len + 1 ≤ (req.data.drop place).length := by
    have hwhole := congrArg List.length hline.eq_append
    simp only [List.length_append, List.length_cons, hline.length_name] at hwhole
    rw [List.length_drop]
    omega
  have hcount : ((req.data.drop place).take (len + 1)).length = len + 1 := by
    rw [List.length_take, min_eq_left hplace]
  have hmemory : req.memory.drop place =
      (req.data.drop place).take (len + 1) ++ ((req.data.drop place).drop (len + 1) ++ req.behind) := by
    rw [← List.append_assoc, List.take_append_drop, Received.memory, List.drop_append_of_le_length]
    rw [List.length_drop] at hplace
    omega
  rw [hmemory] at hlabels
  have hne : (req.data.drop place).take (len + 1) ≠ [] := by
    apply List.ne_nil_of_length_pos
    omega
  rw [← hostsDiffer_eq_some_false_iff hne hnul hlabels, hcount, ← hmemory, isHttpRedirect, hparse]
  simp only [hlocation]

-- "GET / HTTP\nHost: w.a\n\n"
def subdomainRequest : Received :=
  { data := [71, 69, 84, 32, 47, 32, 72, 84, 84, 80, 10, 72, 111, 115, 116, 58, 32, 119, 46, 97, 10, 10], behind := [] }

-- "HTTP/1.1 302 F\nLocation: http://a/\nX\n"
def domainRedirect : Received :=
  { data := [72, 84, 84, 80, 47, 49, 46, 49, 32, 51, 48, 50, 32, 70, 10, 76, 111, 99, 97, 116, 105, 111, 110, 58, 32,
      104, 116, 116, 112, 58, 47, 47, 97, 47, 10, 88, 10]
    behind := [0] }

-- A redirect to the domain above the host leads away from it.
theorem isHttpRedirect_subdomainRequest : isHttpRedirect subdomainRequest domainRedirect ≠ some false := by
  have hlabels : NoEmptyLabel (46 :: subdomainRequest.memory.drop 17) := by
    unfold NoEmptyLabel
    decide
  have hparse : parseHttp subdomainRequest.data = some (17, .ofNat (2 + 1)) := by decide
  have hlocation : locationHost domainRedirect = some (some [97]) := by decide
  have hiff := isHttpRedirect_eq_some_false_iff hparse hlocation (by decide) hlabels
  rw [ne_eq, hiff, under_iff (by decide)]
  decide

example : isHttpRedirect subdomainRequest domainRedirect = some true := by decide

end ToInet.Byedpi.Packets
