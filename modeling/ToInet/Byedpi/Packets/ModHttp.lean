import ToInet.Byedpi.Packets.Parse

-- The changes that mod_http of byedpi makes to a request.
namespace ToInet.Byedpi.Packets

open ToInet.Lib

-- MH_HMIX, MH_SPACE and MH_DMIX are the bits 0, 1 and 2.
def mixName (buffer : Bytes) (par : Nat) : Bytes :=
  ((buffer.modify par toLower).modify (par + 1) toUpper).modify (par + 3) toUpper

-- Every other byte of the host, from the first one on.
def mixHost (buffer : Bytes) (host hlen : Nat) : Bytes :=
  buffer.mapIdx fun i c => if host ≤ i ∧ i < host + hlen ∧ (i - host) % 2 = 0 then toUpper c else c

-- The host, as far as there is no space, moves to the colon, and tabs fill the place behind it.
def moveHost (buffer : Bytes) (par host hlen : Nat) : Bytes :=
  let len := hlen + ((buffer.drop (host + hlen)).takeWhile fun c => !isSpace c).length
  buffer.take (par + 5) ++ (buffer.drop host).take len ++ List.replicate (host - (par + 5)) 9 ++
    buffer.drop (host + len)

-- A host of negative length has MH_SPACE move as many bytes as a size can be.
inductive Modified where
  | failed
  | undefined
  | done (buffer : Bytes)
deriving DecidableEq

def modHttp (buffer : Bytes) (m : Nat) : Modified :=
  match parseHttp buffer with
  | none => .failed
  | some (host, len) =>
      if len = 0 then .failed
      else if len < 0 ∧ m.testBit 1 then .undefined
      else
        let hlen := len.toNat
        let par := ((buffer.take host).rdropWhile (· ≠ 58)).length - 5
        let named := if m.testBit 0 then mixName buffer par else buffer
        let mixed := if m.testBit 2 then mixHost named host hlen else named
        .done (if m.testBit 1 then moveHost mixed par host hlen else mixed)

section lists

theorem modify_append_right (f : UInt8 → UInt8) (pre l : Bytes) (i : Nat) :
    (pre ++ l).modify (pre.length + i) f = pre ++ l.modify i f := by
  induction pre with
  | nil => rw [List.length_nil, Nat.zero_add, List.nil_append, List.nil_append]
  | cons c pre ih => rw [List.length_cons, Nat.add_right_comm, List.cons_append, List.modify_succ_cons, ih]; rfl

theorem modify_append_left (f : UInt8 → UInt8) {l : Bytes} (tail : Bytes) {i : Nat} (h : i < l.length) :
    (l ++ tail).modify i f = l.modify i f ++ tail := by
  induction l generalizing i with
  | nil => exact absurd h (Nat.not_lt_zero _)
  | cons c l ih =>
      cases i with
      | zero => rfl
      | succ i => rw [List.cons_append, List.modify_succ_cons, ih (Nat.lt_of_succ_lt_succ h)]; rfl

theorem sameText_modify {f : UInt8 → UInt8} (hf : ∀ c, toLower (f c) = toLower c) (l : Bytes) (i : Nat) :
    SameText (l.modify i f) l := by
  refine List.ext_getElem (by simp) fun j h1 h2 => ?_
  simp only [List.getElem_map, List.getElem_modify]
  split
  · exact hf _
  · rfl

theorem sameText_mapIdx {f : Nat → UInt8 → UInt8} (hf : ∀ i c, toLower (f i c) = toLower c) (l : Bytes) :
    SameText (l.mapIdx f) l := by
  refine List.ext_getElem (by simp) fun j h1 h2 => ?_
  simp only [List.getElem_map, List.getElem_mapIdx]
  exact hf _ _

theorem mapIdx_eq_self {f : Nat → UInt8 → UInt8} {l : Bytes} (hf : ∀ i < l.length, ∀ c, f i c = c) :
    l.mapIdx f = l := by
  refine List.ext_getElem (by simp) fun j h1 h2 => ?_
  rw [List.getElem_mapIdx, hf j h2]

end lists

theorem toLower_toLower (c : UInt8) : toLower (toLower c) = toLower c := by
  apply UInt8.toNat_inj.mp
  rw [toNat_toLower, toNat_toLower]
  split_ifs <;> omega

theorem exists_mixName {name : Bytes} (h : name.length = 6) : ∃ name', SameText name' name ∧
    ∀ pre tail : Bytes, mixName (pre ++ (name ++ tail)) (pre.length + 1) = pre ++ (name' ++ tail) := by
  refine ⟨((name.modify 1 toLower).modify 2 toUpper).modify 4 toUpper, ?_, fun pre tail => ?_⟩
  · exact (sameText_modify toLower_toUpper _ _).trans
      ((sameText_modify toLower_toUpper _ _).trans (sameText_modify toLower_toLower _ _))
  · rw [mixName, Nat.add_assoc, Nat.add_assoc, modify_append_right, modify_append_right, modify_append_right,
      modify_append_left _ _ (by omega), modify_append_left _ _ (by rw [List.length_modify]; omega),
      modify_append_left _ _ (by rw [List.length_modify, List.length_modify]; omega)]

theorem exists_mixHost (value : Bytes) {hlen : Nat} (h : hlen ≤ value.length) : ∃ value', SameText value' value ∧
    ∀ pre tail : Bytes, mixHost (pre ++ (value ++ tail)) pre.length hlen = pre ++ (value' ++ tail) := by
  refine ⟨value.mapIdx fun i c => if i < hlen ∧ i % 2 = 0 then toUpper c else c,
    sameText_mapIdx (fun i c => ?_) value, fun pre tail => ?_⟩
  · split
    · exact toLower_toUpper c
    · rfl
  · rw [mixHost, List.mapIdx_append, List.mapIdx_append, mapIdx_eq_self (l := pre), mapIdx_eq_self (l := tail)]
    · congr 2
      refine List.mapIdx_eq_mapIdx_iff.mpr fun i hi => ?_
      have hcond : (pre.length ≤ i + pre.length ∧ i + pre.length < pre.length + hlen ∧
          (i + pre.length - pre.length) % 2 = 0) ↔ i < hlen ∧ i % 2 = 0 := by
        rw [Nat.add_sub_cancel]
        omega
      simp only [hcond]
    · intro i hi c
      rw [if_neg]
      omega
    · intro i hi c
      rw [if_neg]
      omega

theorem getLast?_rdropWhile (p : UInt8 → Bool) (l : Bytes) :
    (l.rdropWhile p).getLast? = l.reverse.find? fun c => !p c := by
  rw [List.rdropWhile, List.getLast?_reverse, List.find?_not_eq_head?_dropWhile]

theorem rdropWhile_append_all {p : UInt8 → Bool} {l m : Bytes} (h : ∀ c ∈ m, p c = true) :
    (l ++ m).rdropWhile p = l.rdropWhile p := by
  rw [List.rdropWhile, List.reverse_append, List.dropWhile_append_of_pos fun c hc => h c (List.mem_reverse.mp hc)]
  rfl

theorem hostLength_of_colon {h z : Bytes} (hdigit : z.getLast?.any isDigit = true) (hz : 58 ∉ z) :
    hostLength (h ++ 58 :: z) = h.length := by
  have hlast : (h ++ 58 :: z).getLast?.any isDigit = true := by
    cases z with
    | nil => cases hdigit
    | cons c z => rwa [List.getLast?_append_cons, List.getLast?_cons_cons]
  have hcolon : (h ++ 58 :: z).rdropWhile (· ≠ 58) = h ++ [58] := by
    rw [List.append_cons, rdropWhile_append_all fun c hc => by
      simp only [ne_eq, decide_eq_true_iff]
      rintro rfl
      exact hz hc]
    exact List.rdropWhile_concat_neg _ _ _ (by decide)
  rw [hostLength]
  simp only [hcolon, hlast]
  rw [if_pos ⟨trivial, by simp⟩]
  simp

-- Either the whole line is the host, or a colon and what ends with a digit follow it.
theorem hostLength_cases (line : Bytes) : hostLength line = line.length ∨
    ∃ h z, line = h ++ 58 :: z ∧ z.getLast?.any isDigit = true ∧ 58 ∉ z := by
  by_cases hcond : line.getLast?.any isDigit = true ∧ line.rdropWhile (· ≠ 58) ≠ []
  · obtain ⟨hdigit, hne⟩ := hcond
    have hlast := List.rdropWhile_last_not _ line hne
    simp only [ne_eq, decide_eq_true_iff, Decidable.not_not] at hlast
    have hsplit := List.rdropWhile_append_rtakeWhile (p := fun c : UInt8 => decide (c ≠ 58)) (l := line)
    rw [← List.dropLast_append_getLast hne, hlast, List.append_assoc, List.singleton_append] at hsplit
    refine .inr ⟨_, _, hsplit.symm, ?_, fun hmem => ?_⟩
    · rw [← hsplit, List.getLast?_append_cons] at hdigit
      cases hz : List.rtakeWhile (fun c : UInt8 => decide (c ≠ 58)) line with
      | nil =>
          rw [hz] at hdigit
          exact absurd hdigit (by decide)
      | cons c z =>
          rw [hz, List.getLast?_cons_cons] at hdigit
          exact hdigit
    · have hne58 := List.mem_rtakeWhile_imp hmem
      simp at hne58
  · exact .inl (if_neg hcond)

-- The host stays where the tabs come behind the first space.
theorem hostLength_move (tabs : Bytes) {value : Bytes} (hline : value.rdropWhile isSpace ≠ [])
    (htabs : ∀ c ∈ tabs, isSpace c = true) :
    let hlen := hostLength (value.rdropWhile isSpace)
    let len := hlen + ((value.drop hlen).takeWhile fun c => !isSpace c).length
    let moved := value.take len ++ tabs ++ value.drop len
    moved.rdropWhile isSpace ≠ [] ∧ hostLength (moved.rdropWhile isSpace) = hlen ∧ hlen ≤ value.length ∧
      moved.take hlen = value.take hlen := by
  have hspaces : ∀ c ∈ value.rtakeWhile isSpace, isSpace c = true := fun c hc => List.mem_rtakeWhile_imp hc
  have hvalue := List.rdropWhile_append_rtakeWhile (p := isSpace) (l := value)
  generalize value.rtakeWhile isSpace = spaces at hspaces hvalue
  rcases hostLength_cases (value.rdropWhile isSpace) with hwhole | ⟨h, z, hsplit, hdigit, hz⟩
  · have hidem := List.rdropWhile_idempotent isSpace value
    simp only [hwhole]
    generalize value.rdropWhile isSpace = line at hline hvalue hwhole hidem
    subst hvalue
    have hnone : spaces.takeWhile (fun c => !isSpace c) = [] := by
      cases spaces with
      | nil => rfl
      | cons c spaces => rw [List.takeWhile_cons_of_neg (by rw [hspaces c List.mem_cons_self]; decide)]
    rw [List.drop_left, hnone, List.length_nil, Nat.add_zero, List.take_left, List.drop_left, List.append_assoc,
      rdropWhile_append_all (List.forall_mem_append.mpr ⟨htabs, hspaces⟩), hidem]
    exact ⟨hline, hwhole, by simp, List.take_left⟩
  · have hlen : hostLength (value.rdropWhile isSpace) = h.length := by
      rw [hsplit]
      exact hostLength_of_colon hdigit hz
    have hlast : z.rdropWhile isSpace = z := by
      refine List.rdropWhile_eq_self_iff.mpr fun hne hspace => ?_
      rw [List.getLast?_eq_some_getLast hne, Option.any_some] at hdigit
      simp only [isSpace, isDigit, decide_eq_true_iff] at hspace hdigit
      omega
    have hzne : z ≠ [] := by
      rintro rfl
      cases hdigit
    -- What follows the colon, cut at its first space.
    have hcut := List.takeWhile_append_dropWhile (p := fun c => !isSpace c) (l := z ++ spaces)
    simp only [hlen]
    rw [hsplit, List.append_assoc, List.cons_append] at hvalue
    rw [← hvalue, List.drop_left, List.takeWhile_cons_of_pos (by decide)]
    generalize (z ++ spaces).takeWhile (fun c => !isSpace c) = a at hcut ⊢
    generalize (z ++ spaces).dropWhile (fun c => !isSpace c) = b at hcut
    have hassoc : h ++ 58 :: (z ++ spaces) = (h ++ 58 :: a) ++ b := by rw [← hcut]; simp
    have hlenA : (h ++ 58 :: a).length = h.length + (58 :: a).length := List.length_append
    have hend : (a ++ tabs ++ b).rdropWhile isSpace ≠ [] ∧
        ((a ++ tabs ++ b).rdropWhile isSpace).getLast?.any isDigit = true := by
      have hab : (a ++ b).rdropWhile isSpace = z := by
        rw [hcut, rdropWhile_append_all hspaces, hlast]
      have hsome : ((a ++ tabs ++ b).rdropWhile isSpace).getLast? = z.getLast? := by
        have htabs' : tabs.reverse.find? (fun c => !isSpace c) = none :=
          List.find?_eq_none.mpr fun c hc => by rw [htabs c (List.mem_reverse.mp hc)]; decide
        rw [← hab, getLast?_rdropWhile, getLast?_rdropWhile, List.reverse_append, List.reverse_append,
          List.reverse_append, List.find?_append, List.find?_append, List.find?_append, htabs', Option.none_or]
      rw [hsome]
      refine ⟨?_, hdigit⟩
      rintro hnil
      rw [hnil, List.getLast?_nil, eq_comm, List.getLast?_eq_none_iff] at hsome
      exact hzne hsome
    have hcolon : 58 ∉ (a ++ tabs ++ b).rdropWhile isSpace := by
      intro hmem
      have hmem' := (List.rdropWhile_prefix isSpace _).subset hmem
      rw [List.mem_append, List.mem_append, or_right_comm, ← List.mem_append, hcut, List.mem_append] at hmem'
      rcases hmem' with (hmem' | hmem') | hmem'
      · exact hz hmem'
      · exact absurd (hspaces 58 hmem') (by decide)
      · exact absurd (htabs 58 hmem') (by decide)
    have hmoved : (h ++ 58 :: (a ++ tabs ++ b)).rdropWhile isSpace =
        h ++ 58 :: (a ++ tabs ++ b).rdropWhile isSpace := by
      rw [List.append_cons, rdropWhile_append hend.1, List.append_assoc]
      rfl
    rw [hassoc, List.take_left' hlenA, List.drop_left' hlenA, List.append_assoc, List.append_assoc h,
      List.cons_append, ← List.append_assoc a, hmoved, hostLength_of_colon hend.2 hcolon]
    refine ⟨by simp, rfl, by simp, ?_⟩
    rw [List.take_left, List.append_assoc, List.take_left]

theorem moveHost_append {pre name blanks value rest : Bytes} (hname : name.length = 6) {hlen : Nat}
    (h : hlen ≤ value.length) :
    let len := hlen + ((value.drop hlen).takeWhile fun c => !isSpace c).length
    moveHost (pre ++ (name ++ (blanks ++ (value ++ 10 :: rest)))) (pre.length + 1) (pre.length + 6 + blanks.length)
      hlen = pre ++ (name ++
        ([] ++ ((value.take len ++ List.replicate blanks.length 9 ++ value.drop len) ++ 10 :: rest))) := by
  intro len
  have hlen' : len ≤ value.length := by
    have hle := (List.takeWhile_sublist (l := value.drop hlen) fun c => !isSpace c).length_le
    rw [List.length_drop] at hle
    exact Nat.add_le_of_le_sub' h hle
  have hstop : ((value.drop hlen ++ 10 :: rest).takeWhile fun c => !isSpace c) =
      (value.drop hlen).takeWhile fun c => !isSpace c := by
    rw [List.takeWhile_append]
    split
    case isTrue heq =>
      rw [List.takeWhile_cons_of_neg (by decide), List.append_nil,
        (List.takeWhile_prefix _).eq_of_length heq]
    case isFalse => rfl
  have hvalue (k : Nat) :
      (pre ++ (name ++ (blanks ++ (value ++ 10 :: rest)))).drop (pre.length + 6 + blanks.length + k) =
      (value ++ 10 :: rest).drop k := by
    rw [← List.drop_drop, ← List.append_assoc, ← List.append_assoc, List.drop_left' (by simp [hname, Nat.add_assoc])]
  have hhead : (pre ++ (name ++ (blanks ++ (value ++ 10 :: rest)))).take (pre.length + 1 + 5) = pre ++ name := by
    rw [← List.append_assoc, List.take_left' (by rw [List.length_append, hname])]
  have hhost := hvalue 0
  rw [Nat.add_zero, List.drop_zero] at hhost
  rw [moveHost]
  simp only [hvalue, hhost, hhead]
  rw [List.drop_append_of_le_length h, hstop]
  change _ ++ (value ++ 10 :: rest).take len ++ _ ++ (value ++ 10 :: rest).drop len = _
  rw [List.take_append_of_le_length hlen', List.drop_append_of_le_length hlen',
    show pre.length + 6 + blanks.length - (pre.length + 1 + 5) = blanks.length by omega]
  simp only [List.append_assoc, List.nil_append]

theorem SameText.filter {a b : Bytes} (h : SameText a b) :
    SameText (a.filter fun c => !isSpace c) (b.filter fun c => !isSpace c) := by
  have hmap (l : Bytes) : (l.filter fun c => !isSpace c).map toLower = (l.map toLower).filter fun c => !isSpace c := by
    rw [List.filter_map]
    congr 2
    funext c
    exact congrArg not (isSpace_toLower c).symm
  rw [SameText, hmap, hmap, h]

theorem SameText.head {a b : Bytes} (h : SameText a b) (hb : ∀ c ∈ b.head?, isBlank c = false) :
    ∀ c ∈ a.head?, isBlank c = false := by
  cases a with
  | nil => simp
  | cons d tail =>
      cases b with
      | nil => cases h
      | cons e tail' =>
          rintro c hc
          obtain rfl := Option.some.inj hc
          rw [← isBlank_toLower, (sameText_cons.mp h).1, isBlank_toLower]
          exact hb e rfl

theorem filter_eq_nil_of_isSpace {l : Bytes} (h : ∀ c ∈ l, isSpace c = true) : (l.filter fun c => !isSpace c) = [] :=
  List.filter_eq_nil_iff.mpr fun c hc => by rw [h c hc]; decide

-- Where the colon of the name is.
theorem HostLine.colon {buffer pre name blanks value rest : Bytes} (h : HostLine buffer pre name blanks value rest) :
    ((buffer.take (pre.length + 6 + blanks.length)).rdropWhile (· ≠ 58)).length - 5 = pre.length + 1 := by
  have htake : buffer.take (pre.length + 6 + blanks.length) = (pre ++ name) ++ blanks := by
    rw [h.eq_append, ← List.append_assoc, ← List.append_assoc,
      List.take_left' (by rw [List.length_append, List.length_append, h.length_name])]
  have hblanks : ∀ c ∈ blanks, decide (c ≠ 58) = true := by
    intro c hc
    rw [decide_eq_true_iff]
    rintro rfl
    exact absurd (h.isBlank_of_mem 58 hc) (by decide)
  obtain rfl | ⟨init, last, rfl⟩ := List.eq_nil_or_concat' name
  · cases h.length_name
  have hlast : last = 58 := by
    have hsame := h.sameText_name.drop 5
    rw [List.drop_left' (by simpa using h.length_name)] at hsame
    exact (toLower_eq_iff (d := 58) (by decide)).mp (List.cons_eq_cons.mp hsame).1
  rw [htake, rdropWhile_append_all hblanks, ← List.append_assoc, List.rdropWhile_concat_neg _ _ _ (by simp [hlast])]
  have hlen := h.length_name
  simp only [List.length_append, List.length_singleton] at hlen ⊢
  omega

theorem HostLine.exists_line {buffer pre name blanks value rest : Bytes}
    (h : HostLine buffer pre name blanks value rest) :
    ∃ line, buffer = pre ++ (10 :: line ++ 10 :: rest) ∧ 10 ∉ line ∧ 10 :: line = name ++ (blanks ++ value) := by
  have hname := h.sameText_name
  cases name with
  | nil => cases h.length_name
  | cons c tail =>
      obtain ⟨hten, htail⟩ := sameText_cons.mp hname
      obtain rfl : c = 10 := (toLower_eq_iff (d := 10) (by decide)).mp hten
      refine ⟨tail ++ (blanks ++ value), ?_, ?_, rfl⟩
      · rw [h.eq_append]
        simp
      · rw [List.mem_append, List.mem_append, not_or, not_or]
        refine ⟨fun hmem => ?_, fun hmem => ?_, h.not_mem⟩
        · exact absurd ((htail.mem_iff (d := 10) (by decide)).mp hmem) (by decide)
        · exact absurd (h.isBlank_of_mem 10 hmem) (by decide)

theorem HostLine.exists_modHttp {buffer pre name blanks value rest : Bytes}
    (h : HostLine buffer pre name blanks value rest) (hne : value.rdropWhile isSpace ≠ [])
    (hpos : 0 < hostLength (value.rdropWhile isSpace)) (hle : hostLength (value.rdropWhile isSpace) ≤ value.length)
    (m : Nat) : ∃ name' value', SameText name' name ∧ SameText value' value ∧ modHttp buffer m = .done
      (if m.testBit 1 then moveHost (pre ++ (name' ++ (blanks ++ (value' ++ 10 :: rest)))) (pre.length + 1)
          (pre.length + 6 + blanks.length) (hostLength (value.rdropWhile isSpace))
        else pre ++ (name' ++ (blanks ++ (value' ++ 10 :: rest)))) := by
  obtain ⟨name', hname, hmix⟩ := exists_mixName h.length_name
  obtain ⟨value', hvalue, hmixHost⟩ := exists_mixHost value hle
  have hparse := h.parse hne
  have hnamed : (if m.testBit 0 then mixName buffer (pre.length + 1) else buffer) =
      pre ++ ((if m.testBit 0 then name' else name) ++ (blanks ++ (value ++ 10 :: rest))) := by
    split
    · rw [h.eq_append, hmix]
    · exact h.eq_append
  have hsame : SameText (if m.testBit 0 then name' else name) name := by
    split
    · exact hname
    · rfl
  refine ⟨if m.testBit 0 then name' else name, if m.testBit 2 then value' else value, hsame, ?_, ?_⟩
  · split
    · exact hvalue
    · rfl
  · have hmixed (n : Bytes) (hn : n.length = 6) :
        (if m.testBit 2 then mixHost (pre ++ (n ++ (blanks ++ (value ++ 10 :: rest)))) (pre.length + 6 + blanks.length)
          (hostLength (value.rdropWhile isSpace)) else pre ++ (n ++ (blanks ++ (value ++ 10 :: rest)))) =
        pre ++ (n ++ (blanks ++ ((if m.testBit 2 then value' else value) ++ 10 :: rest))) := by
      split
      · have hat := hmixHost (pre ++ n ++ blanks) (10 :: rest)
        simp only [List.length_append, hn, List.append_assoc] at hat
        rw [← Nat.add_assoc] at hat
        exact hat
      · rfl
    rw [modHttp, hparse]
    simp only [Int.toNat_natCast, h.colon]
    rw [if_neg (by omega), if_neg (by omega), hnamed, hmixed _ (hsame.length.trans h.length_name)]

theorem length_mixName (buffer : Bytes) (par : Nat) : (mixName buffer par).length = buffer.length := by
  simp only [mixName, List.length_modify]

theorem length_mixHost (buffer : Bytes) (host hlen : Nat) : (mixHost buffer host hlen).length = buffer.length := by
  rw [mixHost, List.length_mapIdx]

theorem length_moveHost {buffer : Bytes} {par host hlen : Nat} (hpar : par + 5 ≤ host)
    (hhost : host + hlen ≤ buffer.length) : (moveHost buffer par host hlen).length = buffer.length := by
  have htake := (List.takeWhile_prefix (l := buffer.drop (host + hlen)) fun c => !isSpace c).length_le
  rw [List.length_drop] at htake
  simp only [moveHost, List.length_append, List.length_take, List.length_drop, List.length_replicate]
  omega

theorem length_modHttp {buffer buffer' : Bytes} {m : Nat} (h : modHttp buffer m = .done buffer') :
    buffer'.length = buffer.length := by
  rw [modHttp] at h
  split at h
  case h_1 => cases h
  case h_2 host len hparse =>
    by_cases hzero : len = 0
    · rw [if_pos hzero] at h
      cases h
    · by_cases hundefined : len < 0 ∧ m.testBit 1
      · rw [if_neg hzero, if_pos hundefined] at h
        cases h
      · rw [if_neg hzero, if_neg hundefined] at h
        obtain rfl := Modified.done.inj h
        have hmixed (buffer : Bytes) (par : Nat) : (if m.testBit 2 then mixHost (if m.testBit 0 then
            mixName buffer par else buffer) host len.toNat else if m.testBit 0 then mixName buffer par
            else buffer).length = buffer.length := by
          split_ifs <;> simp only [length_mixHost, length_mixName]
        split
        case isFalse => exact hmixed ..
        case isTrue hmove =>
          have hnonneg : ¬len < 0 := fun hneg => hundefined ⟨hneg, hmove⟩
          have hlen : 0 < len := by omega
          obtain ⟨pre, name, blanks, value, rest, hline, hne⟩ := exists_hostLine hparse hlen
          obtain ⟨rfl, rfl⟩ := Prod.mk.inj (Option.some.inj (hparse.symm.trans (hline.parse hne)))
          have hle := (hostLength_move [] hne (by simp)).2.2.1
          have hbuffer := congrArg List.length hline.eq_append
          simp only [List.length_append, List.length_cons, hline.length_name] at hbuffer
          refine (length_moveHost ?_ ?_).trans (hmixed ..)
          · rw [hline.colon]
            omega
          · rw [hmixed]
            omega

theorem HostLine.take_host {buffer pre name blanks value rest : Bytes} (h : HostLine buffer pre name blanks value rest)
    {hlen : Nat} (hle : hlen ≤ value.length) :
    (buffer.drop (pre.length + 6 + blanks.length)).take hlen = value.take hlen := by
  rw [h.eq_append, ← List.append_assoc, ← List.append_assoc, List.drop_left' (by simp [h.length_name, Nat.add_assoc]),
    List.take_append_of_le_length hle]

-- The lines of two requests that differ in case and in spaces only.
theorem HostLine.same_line {buffer buffer' pre name name' blanks blanks' value value' rest : Bytes}
    (h : HostLine buffer pre name blanks value rest) (h' : HostLine buffer' pre name' blanks' value' rest)
    (hname : SameText name' name) (hlen : blanks'.length + value'.length = blanks.length + value.length)
    (hfilter : SameText (value'.filter fun c => !isSpace c) (value.filter fun c => !isSpace c)) :
    ∃ pre line line' rest, buffer = pre ++ (10 :: line ++ 10 :: rest) ∧ buffer' = pre ++ (10 :: line' ++ 10 :: rest) ∧
      10 ∉ line ∧ 10 ∉ line' ∧ line'.length = line.length ∧
      SameText (line'.filter fun c => !isSpace c) (line.filter fun c => !isSpace c) := by
  obtain ⟨line, hbuffer, hnot, hline⟩ := h.exists_line
  obtain ⟨line', hbuffer', hnot', hline'⟩ := h'.exists_line
  have hblank {l : Bytes} (hl : ∀ c ∈ l, isBlank c = true) : (l.filter fun c => !isSpace c) = [] :=
    filter_eq_nil_of_isSpace fun c hc => isSpace_of_isBlank (hl c hc)
  have htext := hname.filter.append hfilter
  refine ⟨pre, line, line', rest, hbuffer, hbuffer', hnot, hnot', ?_, ?_⟩
  · have hlenLine := congrArg List.length hline
    have hlenLine' := congrArg List.length hline'
    simp only [List.length_cons, List.length_append] at hlenLine hlenLine'
    have hlenName := hname.length
    omega
  · rw [← List.nil_append (value'.filter _), ← hblank h'.isBlank_of_mem, ← List.nil_append (value.filter _),
      ← hblank h.isBlank_of_mem, ← List.filter_append, ← List.filter_append, ← List.filter_append,
      ← List.filter_append, ← hline, ← hline'] at htext
    exact htext

-- A request whose host is found is sent with the same host: only the case of letters and the spaces of its Host line
-- change.
theorem modHttp_keeps_host {buffer : Bytes} {host : Nat} {len : Int} (h : parseHttp buffer = some (host, len))
    (hlen : 0 < len) (m : Nat) : ∃ buffer' host', modHttp buffer m = .done buffer' ∧
      parseHttp buffer' = some (host', len) ∧
      SameText ((buffer'.drop host').take len.toNat) ((buffer.drop host).take len.toNat) ∧
      ∃ pre line line' rest, buffer = pre ++ (10 :: line ++ 10 :: rest) ∧ buffer' = pre ++ (10 :: line' ++ 10 :: rest) ∧
        10 ∉ line ∧ 10 ∉ line' ∧ line'.length = line.length ∧
        SameText (line'.filter fun c => !isSpace c) (line.filter fun c => !isSpace c) := by
  obtain ⟨pre, name, blanks, value, rest, hline, hne⟩ := exists_hostLine h hlen
  have hparse := hline.parse hne
  obtain ⟨rfl, rfl⟩ := Prod.mk.inj (Option.some.inj (h.symm.trans hparse))
  have hle := (hostLength_move [] hne (by simp)).2.2.1
  obtain ⟨name', value', hname, hvalue, hmod⟩ := hline.exists_modHttp hne (by omega) hle m
  have hstrip := hvalue.rdropWhile isSpace isSpace_toLower
  have hne' : value'.rdropWhile isSpace ≠ [] := by
    rw [← List.length_pos_iff_ne_nil, hstrip.length]
    exact List.length_pos_iff_ne_nil.mpr hne
  have hlenHost := hstrip.hostLength
  have hle' := hle
  rw [← hvalue.length] at hle'
  have hnot' : 10 ∉ value' := (hvalue.mem_iff (d := 10) (by decide)).not.mpr hline.not_mem
  have hhead' := hvalue.head hline.head
  cases hm : m.testBit 1 with
  | false =>
      rw [hm, if_neg (by decide)] at hmod
      have hline' := hline.change blanks hname hline.isBlank_of_mem hnot' hhead' (by rw [hvalue.length])
      refine ⟨_, _, hmod, (hline'.parse hne').trans (by rw [hlenHost]), ?_,
        hline.same_line hline' hname (by rw [hvalue.length]) hvalue.filter⟩
      rw [Int.toNat_natCast, hline'.take_host hle', hline.take_host hle]
      exact hvalue.take _
  | true =>
      rw [hm, if_pos rfl, moveHost_append (hname.length.trans hline.length_name) hle'] at hmod
      have htabs : ∀ c ∈ List.replicate blanks.length (9 : UInt8), isSpace c = true := fun c hc => by
        rw [List.eq_of_mem_replicate hc]
        decide
      have hmove := hostLength_move _ hne' htabs
      simp only [hlenHost] at hmove
      have hk : 0 < hostLength (value.rdropWhile isSpace) +
          ((value'.drop (hostLength (value.rdropWhile isSpace))).takeWhile fun c => !isSpace c).length := by omega
      generalize hostLength (value.rdropWhile isSpace) +
        ((value'.drop (hostLength (value.rdropWhile isSpace))).takeWhile fun c => !isSpace c).length = k
        at hk hmove hmod
      generalize htabsEq : List.replicate blanks.length (9 : UInt8) = tabs at htabs hmove hmod
      have hlenTabs : tabs.length = blanks.length := by rw [← htabsEq, List.length_replicate]
      obtain ⟨hneMoved, hlenMoved, -, htakeMoved⟩ := hmove
      have hnotMoved : 10 ∉ value'.take k ++ tabs ++ value'.drop k := by
        rw [List.mem_append, List.mem_append, or_right_comm, ← List.mem_append, List.take_append_drop, not_or]
        refine ⟨hnot', fun hmem => ?_⟩
        rw [← htabsEq] at hmem
        exact absurd (List.eq_of_mem_replicate hmem) (by decide)
      have hheadMoved : ∀ c ∈ (value'.take k ++ tabs ++ value'.drop k).head?, isBlank c = false := by
        cases value' with
        | nil => exact absurd rfl hne'
        | cons d tail =>
            obtain ⟨k, rfl⟩ := Nat.exists_eq_succ_of_ne_zero hk.ne'
            exact hhead'
      have hlenText : (value'.take k ++ tabs ++ value'.drop k).length = blanks.length + value.length := by
        have hsplit := congrArg List.length (List.take_append_drop k value')
        rw [List.length_append] at hsplit
        rw [List.length_append, List.length_append, ← hvalue.length, hlenTabs]
        omega
      have hfilterMoved : SameText ((value'.take k ++ tabs ++ value'.drop k).filter fun c => !isSpace c)
          (value.filter fun c => !isSpace c) := by
        rw [List.filter_append, List.filter_append, filter_eq_nil_of_isSpace htabs, List.append_nil,
          ← List.filter_append, List.take_append_drop]
        exact hvalue.filter
      have hline' := hline.change [] hname (by simp) hnotMoved hheadMoved
        (by rw [List.length_nil, Nat.zero_add, hlenText])
      have hparse' := hline'.parse hneMoved
      rw [hlenMoved] at hparse'
      refine ⟨_, _, hmod, hparse', ?_, hline.same_line hline' hname
        (by rw [List.length_nil, Nat.zero_add, hlenText]) hfilterMoved⟩
      rw [Int.toNat_natCast, hline'.take_host (by rw [hlenText]; omega), hline.take_host hle, htakeMoved]
      exact hvalue.take _

-- "GET / HTTP\nHost: a.b\n"
def shortRequest : Bytes :=
  [71, 69, 84, 32, 47, 32, 72, 84, 84, 80, 10, 72, 111, 115, 116, 58, 32, 97, 46, 98, 10]

theorem modHttp_keeps_host_shortRequest : ∃ buffer' host', modHttp shortRequest 7 = .done buffer' ∧
    parseHttp buffer' = some (host', 3) := by
  have hparse : parseHttp shortRequest = some (17, 3) := by decide
  obtain ⟨buffer', host', hdone, hparse', -⟩ := modHttp_keeps_host hparse (by decide) 7
  exact ⟨buffer', host', hdone, hparse'⟩

-- "GET / HTTP\nhOsT:A.B\t\n"
example : modHttp shortRequest 7 =
    .done [71, 69, 84, 32, 47, 32, 72, 84, 84, 80, 10, 104, 79, 115, 84, 58, 65, 46, 66, 9, 10] := by
  decide

end ToInet.Byedpi.Packets
