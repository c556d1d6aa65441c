import ToInet.Circumvention.Bridge.Pieces

-- Which bridge lines the builder writes so that they are read as before.
namespace ToInet.Circumvention.Bridge

open ToInet.Lib ToInet.Util

structure SameFields (bridge other : Bridge) : Prop where
  transport : other.transport = bridge.transport
  ip : other.ip = bridge.ip
  port : other.port = bridge.port
  fingerprint1 : other.fingerprint1 = bridge.fingerprint1
  fingerprint2 : other.fingerprint2 = bridge.fingerprint2
  url : other.url = bridge.url
  front : other.front = bridge.front
  fronts : ∀ name, name ∈ other.fronts.getD [] ↔ name ∈ bridge.fronts.getD []
  cert : other.cert = bridge.cert
  iatMode : other.iatMode = bridge.iatMode
  ice : other.ice = bridge.ice
  utls : other.utls = bridge.utls
  utlsImitate : other.utlsImitate = bridge.utlsImitate
  ver : other.ver = bridge.ver

-- The parameters that the line has a value for.
def given (bridge : Bridge) (key : String) : Bool :=
  if key = "fronts" then bridge.fronts.getD [] ≠ [] else (bridge.param key).getD [] ≠ []

-- How many pieces there are to write behind the address.
def optionals (bridge : Bridge) : Nat := bridge.fingerprint1.toList.length + keys.countP bridge.given

def portText (bridge : Bridge) : List Char := lastPart ':' (bridge.address.getD [])

-- The port is written as its number, or the address is a list of fronts that has its last one in both
-- spellings among the others.
def PortKept (bridge : Bridge) (key : String) : Prop :=
  ∃ n : Int, Prefs.parseInt bridge.portText = some n ∧
    (bridge.portText = (toString n).toList ∨
      key = "fronts" ∧
        let names := (lastPart '=' (bridge.address.getD [])).splitOn ','
        let last := names.getLastD []
        last ∈ names.dropLast ∧ frontPart ':' last ++ ':' :: (toString n).toList ∈ names.dropLast)

structure Rebuilds (bridge : Bridge) : Prop where
  pieces : bridge.transport.isSome ∧ 1 ≤ bridge.optionals ∨ bridge.transport = none ∧ bridge.optionals ≤ 1
  values : ∀ key ∈ keys, key ≠ "fronts" → bridge.param key = some [] →
    startsWith key (bridge.rawPieces.headD []) = true
  address : ∀ key ∈ keys, startsWith key (bridge.address.getD []) = true →
    startsWith key (bridge.rawPieces.headD []) = false → PortKept bridge key

variable {bridge : Bridge} {key : String}

theorem sameFields_iff (bridge other : Bridge) :
    SameFields bridge other ↔
      (other.transport = bridge.transport ∧ other.ip = bridge.ip ∧ other.port = bridge.port ∧
        other.fingerprint1 = bridge.fingerprint1) ∧
      (∀ key ∈ keys, key ≠ "fronts" → other.param key = bridge.param key) ∧
      ∀ name, name ∈ other.fronts.getD [] ↔ name ∈ bridge.fronts.getD [] := by
  constructor
  · intro h
    refine ⟨⟨h.transport, h.ip, h.port, h.fingerprint1⟩, fun key hkey hfronts => ?_, h.fronts⟩
    simp only [keys, List.mem_cons, List.not_mem_nil, or_false] at hkey
    obtain rfl | rfl | rfl | rfl | rfl | rfl | rfl | rfl | rfl | rfl := hkey
    · exact h.fingerprint2
    · exact h.url
    · exact h.front
    · exact absurd rfl hfronts
    · exact h.cert
    · exact h.iatMode
    · exact h.ice
    · exact h.utls
    · exact h.utlsImitate
    · exact h.ver
  · rintro ⟨⟨htransport, hip, hport, hfingerprint⟩, hparams, hfronts⟩
    have hparam : ∀ key ∈ keys.filter (· ≠ "fronts"), other.param key = bridge.param key := by
      intro key hkey
      obtain ⟨hmem, hne⟩ := List.mem_filter.mp hkey
      exact hparams key hmem (of_decide_eq_true hne)
    exact ⟨htransport, hip, hport, hfingerprint, hparam _ (by decide), hparam _ (by decide), hparam _ (by decide),
      hfronts, hparam _ (by decide), hparam _ (by decide), hparam _ (by decide), hparam _ (by decide),
      hparam _ (by decide), hparam _ (by decide)⟩

namespace Builder

theorem found_named {other : String} {value : Option (List Char)} (hkey : '=' ∉ key.toList)
    (hother : '=' ∉ other.toList) (hvalue : ∀ text, value = some text → '=' ∉ text) :
    found key (named other value) = if other = key then value.filter (· ≠ []) else none := by
  cases value with
  | none =>
      split
      · rfl
      · rfl
  | some text =>
      by_cases htext : text = []
      · subst htext
        split
        · rfl
        · rfl
      · have hlast : lastPart '=' (other.toList ++ '=' :: text) = text := by
          rw [lastPart_append_cons, lastPart_eq_self (hvalue text rfl)]
        have hnamed : named other (some text) = [other.toList ++ '=' :: text] := by
          simp [named, nonEmpty, htext]
        have hkeep : (some text).filter (· ≠ []) = some text := by simp [Option.filter, htext]
        rw [hnamed, found_cons, hlast, found_nil, hkeep]
        exact if_congr (startsWith_named hkey hother) rfl rfl

theorem found_fields {others : List String} {value : String → Option (List Char)} (hkey : '=' ∉ key.toList)
    (hothers : ∀ other ∈ others, '=' ∉ other.toList) (hvalue : ∀ other text, value other = some text → '=' ∉ text) :
    found key (others.flatMap fun other => named other (value other)) =
      if key ∈ others then (value key).filter (· ≠ []) else none := by
  induction others with
  | nil => rfl
  | cons other others ih =>
      rw [List.flatMap_cons, found_append, found_named hkey (hothers other List.mem_cons_self) (hvalue other),
        ih fun x hx => hothers x (List.mem_cons_of_mem _ hx)]
      by_cases hsame : other = key
      · subst hsame
        rw [if_pos rfl, if_pos List.mem_cons_self]
        split
        · exact Option.or_self
        · exact Option.or_none
      · simp [hsame, Ne.symm hsame]

end Builder

-- The fronts in the order in which they are written.
def frontSet (bridge : Bridge) : List (List Char) := ((bridge.fronts.getD []).eraseDups).filter (· ≠ [])

-- What build writes for a key.
def written (bridge : Bridge) (key : String) : Option (List Char) :=
  if key = "fronts" then if bridge.frontSet = [] then none else some ([','].intercalate bridge.frontSet)
  else bridge.param key

theorem mem_fronts {name : List Char} (h : name ∈ bridge.fronts.getD []) : name ≠ [] ∧ ',' ∉ name ∧ '=' ∉ name := by
  cases hparam : bridge.param "fronts" with
  | none =>
      rw [fronts, hparam] at h
      cases h
  | some value =>
      rw [fronts, hparam, Option.map_some, Option.getD_some, List.mem_filter] at h
      obtain ⟨piece, _, rfl⟩ := Option.map_eq_some_iff.mp hparam
      refine ⟨of_decide_eq_true h.2, notMem_of_mem_splitOn h.1, fun hmem => ?_⟩
      exact notMem_lastPart '=' piece (mem_of_mem_splitOn h.1 _ hmem)

theorem equals_notMem_written (bridge : Bridge) (key : String) {text : List Char}
    (h : bridge.written key = some text) : '=' ∉ text := by
  unfold written at h
  split at h
  · split at h
    · cases h
    · rw [← Option.some.inj h]
      intro hmem
      obtain hcomma | ⟨name, hname, hmem⟩ := mem_intercalate hmem
      · cases hcomma
      · have hname := List.mem_eraseDups.mp (List.mem_filter.mp hname).1
        exact (mem_fronts hname).2.2 hmem
  · obtain ⟨piece, _, rfl⟩ := Option.map_eq_some_iff.mp h
    exact notMem_lastPart '=' piece

-- What stands behind the address in a line that is built, in pieces.
def tailWith (bridge : Bridge) (value : String → Option (List Char)) : List (List Char) :=
  Builder.nonEmpty bridge.fingerprint1 ++ keys.flatMap fun key => Builder.named key (value key)

def tail (bridge : Bridge) : List (List Char) := bridge.tailWith bridge.written

theorem fingerprint1_eq_some {text : List Char} (h : bridge.fingerprint1 = some text) :
    isFingerprint text = true ∧ text ≠ [] ∧ '=' ∉ text ∧ ' ' ∉ text := by
  obtain ⟨_, hfingerprint⟩ := Option.filter_eq_some_iff.mp h
  obtain ⟨hlength, hdigits⟩ := isFingerprint_iff.mp hfingerprint
  refine ⟨hfingerprint, ?_, fun hmem => ?_, fun hmem => ?_⟩
  · rintro rfl
    exact absurd hlength (by decide)
  · exact absurd (hdigits '=' hmem) (by decide)
  · exact absurd (hdigits ' ' hmem) (by decide)

theorem found_tail (hkey : key ∈ keys) : found key bridge.tail = (bridge.written key).filter (· ≠ []) := by
  have hnone : found key (Builder.nonEmpty bridge.fingerprint1) = none := by
    cases hfingerprint : bridge.fingerprint1 with
    | none => rfl
    | some text =>
        obtain ⟨_, hne, hequals, _⟩ := fingerprint1_eq_some hfingerprint
        have hpieces : Builder.nonEmpty (some text) = [text] := by simp [Builder.nonEmpty, hne]
        rw [hpieces, found_cons, not_startsWith hequals]
        rfl
  rw [tail, tailWith, found_append, hnone, Option.none_or,
    Builder.found_fields (notMem_keys key hkey).1 (fun other hother => (notMem_keys other hother).1)
      fun other _ h => equals_notMem_written bridge other h, if_pos hkey]

-- The set of the fronts has the elements of the list.
theorem mem_frontSet {name : List Char} : name ∈ bridge.frontSet ↔ name ∈ bridge.fronts.getD [] := by
  rw [frontSet, List.mem_filter, List.mem_eraseDups]
  exact and_iff_left_of_imp fun hmem => by simpa using (mem_fronts hmem).1

theorem frontSet_eq_nil_iff : bridge.frontSet = [] ↔ bridge.fronts.getD [] = [] := by
  rw [List.eq_nil_iff_forall_not_mem, List.eq_nil_iff_forall_not_mem]
  exact forall_congr' fun name => not_congr mem_frontSet

theorem given_iff (bridge : Bridge) (key : String) : bridge.given key = true ↔ (bridge.written key).getD [] ≠ [] := by
  unfold given written
  split
  · rw [decide_eq_true_eq, ne_eq, ← frontSet_eq_nil_iff]
    split
    · rename_i hnil
      exact iff_of_false (fun hne => hne hnil) fun hne => hne rfl
    · rename_i hne
      refine iff_of_true hne ?_
      obtain ⟨name, names, hnames⟩ := List.exists_cons_of_ne_nil hne
      have hname : name ∈ bridge.frontSet := by
        rw [hnames]
        exact List.mem_cons_self
      have hname := (mem_fronts (mem_frontSet.mp hname)).1
      obtain ⟨c, rest, rfl⟩ := List.exists_cons_of_ne_nil hname
      have hmem : c ∈ [','].intercalate ((c :: rest) :: names) :=
        mem_intercalate_of_mem List.mem_cons_self List.mem_cons_self
      rw [hnames]
      exact List.ne_nil_of_mem hmem
  · rw [decide_eq_true_eq]

theorem length_named (key : String) (value : Option (List Char)) :
    (Builder.named key value).length = if value.getD [] = [] then 0 else 1 := by
  cases value with
  | none => rfl
  | some text => by_cases htext : text = [] <;> simp [Builder.named, Builder.nonEmpty, htext]

theorem length_tail (bridge : Bridge) : bridge.tail.length = bridge.optionals := by
  have hfields : ∀ others : List String,
      (others.flatMap fun key => Builder.named key (bridge.written key)).length = others.countP bridge.given := by
    intro others
    induction others with
    | nil => rfl
    | cons key others ih =>
        rw [List.flatMap_cons, List.length_append, ih, length_named, List.countP_cons, Nat.add_comm]
        have hgiven := given_iff bridge key
        by_cases hvalue : (bridge.written key).getD [] = []
        · have hnot : ¬bridge.given key = true := fun h => hgiven.mp h hvalue
          rw [if_pos hvalue, if_neg hnot]
        · rw [if_neg hvalue, if_pos (hgiven.mpr hvalue)]
  have hfingerprint : (Builder.nonEmpty bridge.fingerprint1).length = bridge.fingerprint1.toList.length := by
    cases hsome : bridge.fingerprint1 with
    | none => rfl
    | some text => simp [Builder.nonEmpty, (fingerprint1_eq_some hsome).2.1]
  rw [tail, tailWith, List.length_append, hfields, hfingerprint, optionals]

theorem flatMap_fields (builder : Builder) (h : Builder.ofBridge bridge = some builder) :
    (builder.fields.flatMap fun field => Builder.named field.1 field.2) =
      keys.flatMap fun key => Builder.named key (bridge.written key) := by
  obtain ⟨port, _, h⟩ := Option.bind_eq_some_iff.mp h
  split at h
  · cases h
  · obtain rfl := Option.some.inj h
    rfl

theorem ofBridge_of_valid {ip : List Char} {n : Int} (hport : bridge.port = some (some n)) (hip : bridge.ip = some ip)
    (hne : ip ≠ []) (hpos : 1 ≤ n) :
    Builder.ofBridge bridge =
      some ⟨bridge.transport, ip, n, bridge.fingerprint1, bridge.fingerprint2, bridge.url, bridge.front,
        (bridge.fronts.getD []).eraseDups, bridge.cert, bridge.iatMode, bridge.ice, bridge.utls, bridge.utlsImitate,
        bridge.ver⟩ := by
  have hvalid : ¬(ip = [] ∨ n < 1) := not_or.mpr ⟨hne, Int.not_lt.mpr hpos⟩
  simp only [Builder.ofBridge, hport, hip, Option.bind_eq_bind, Option.bind_some, Option.getD_some, if_neg hvalid]

-- What a line has of which the builder can be made, and the pieces that it writes.
theorem ofBridge_eq_some {builder : Builder} (h : Builder.ofBridge bridge = some builder) :
    ∃ first second rest n, bridge.rawPieces = first :: second :: rest ∧ Prefs.parseInt (lastPart ':' second) = some n ∧
      second = frontPart ':' second ++ ':' :: lastPart ':' second ∧ frontPart ':' second ≠ [] ∧
      builder.params = Builder.nonEmpty bridge.transport ++
        (frontPart ':' second ++ ':' :: (toString n).toList) :: bridge.tail := by
  have hfields := flatMap_fields builder h
  obtain ⟨first, second, rest, hpieces⟩ := exists_rawPieces bridge
  have haddress : bridge.address = some second := by rw [address, hpieces]; rfl
  have hip : bridge.ip = some (frontPart ':' second) := by rw [ip, haddress]; rfl
  obtain ⟨port, hport, h⟩ := Option.bind_eq_some_iff.mp h
  rw [Bridge.port, haddress] at hport
  obtain ⟨n, hparse, rfl⟩ := Option.map_eq_some_iff.mp hport
  rw [hip, Option.getD_some, Option.getD_some] at h
  split at h
  · cases h
  · rename_i hvalid
    rw [not_or] at hvalid
    obtain rfl := Option.some.inj h
    refine ⟨first, second, rest, n, hpieces, hparse, eq_append_of_frontPart_ne_nil hvalid.1, hvalid.1, ?_⟩
    rw [Builder.params, hfields, tail, tailWith]
    simp

-- The address of the line has something in front of its last colon, and a number of 1 or more behind it.
def Addressed (bridge : Bridge) : Prop :=
  ∃ ip port n, bridge.address = some (ip ++ ':' :: port) ∧ ip ≠ [] ∧ ':' ∉ port ∧ Prefs.parseInt port = some n ∧ 1 ≤ n

theorem ofBridge_isSome_iff : (Builder.ofBridge bridge).isSome = true ↔ bridge.Addressed := by
  constructor
  · intro h
    obtain ⟨builder, hbuilder⟩ := Option.isSome_iff_exists.mp h
    obtain ⟨port, hport, hvalid⟩ := Option.bind_eq_some_iff.mp hbuilder
    obtain ⟨first, second, rest, n, hpieces, hparse, hsecond, hne, -⟩ := ofBridge_eq_some hbuilder
    have haddress : bridge.address = some second := by rw [address, hpieces]; rfl
    rw [Bridge.port, haddress] at hport
    obtain ⟨number, hnumber, rfl⟩ := Option.map_eq_some_iff.mp hport
    obtain rfl := Option.some.inj (hparse.symm.trans hnumber)
    refine ⟨_, _, n, hsecond ▸ haddress, hne, notMem_lastPart ':' second, hparse, ?_⟩
    by_contra hlow
    rw [if_pos (.inr (Int.not_le.mp hlow))] at hvalid
    cases hvalid
  · rintro ⟨front, digits, n, haddress, hne, hcolon, hparse, hpos⟩
    have hip : bridge.ip = some front := by
      rw [ip, haddress, Option.map_some, frontPart_append_cons hcolon]
    have hport : bridge.port = some (some n) := by
      rw [Bridge.port, haddress]
      simp only [lastPart_append_cons, lastPart_eq_self hcolon, hparse, Option.map_some]
    rw [ofBridge_of_valid hport hip hne hpos]
    rfl

theorem space_notMem_param {text : List Char} (h : bridge.param key = some text) : ' ' ∉ text := by
  obtain ⟨piece, hfind, rfl⟩ := Option.map_eq_some_iff.mp h
  exact fun hmem => space_notMem (List.mem_of_find?_eq_some hfind) (mem_of_mem_lastPart hmem)

theorem space_notMem_written {text : List Char} (h : bridge.written key = some text) : ' ' ∉ text := by
  unfold written at h
  split at h
  · split at h
    · cases h
    · rw [← Option.some.inj h]
      intro hmem
      obtain hcomma | ⟨name, hname, hmem⟩ := mem_intercalate hmem
      · cases hcomma
      · have hname := mem_frontSet.mp hname
        cases hparam : bridge.param "fronts" with
        | none =>
            rw [fronts, hparam] at hname
            cases hname
        | some value =>
            rw [fronts, hparam, Option.map_some, Option.getD_some, List.mem_filter] at hname
            exact space_notMem_param hparam (mem_of_mem_splitOn hname.1 _ hmem)
  · exact space_notMem_param h

theorem mem_tailWith_iff {value : String → Option (List Char)} {piece : List Char} :
    piece ∈ bridge.tailWith value ↔ bridge.fingerprint1 = some piece ∨
      ∃ key ∈ keys, ∃ text, value key = some text ∧ text ≠ [] ∧ piece = key.toList ++ '=' :: text := by
  rw [tailWith, List.mem_append, List.mem_flatMap, Builder.nonEmpty, List.mem_filter, Option.mem_toList]
  refine or_congr (and_iff_left_of_imp fun h => decide_eq_true (fingerprint1_eq_some h).2.1) ?_
  refine exists_congr fun key => and_congr_right fun _ => ?_
  rw [Builder.named, List.mem_map]
  refine exists_congr fun text => ?_
  rw [Builder.nonEmpty, List.mem_filter, Option.mem_toList, decide_eq_true_eq, and_assoc]
  exact and_congr_right fun _ => and_congr_right fun _ => eq_comm

theorem space_notMem_tailWith {value : String → Option (List Char)} {piece : List Char}
    (hvalue : ∀ key text, value key = some text → ' ' ∉ text) (h : piece ∈ bridge.tailWith value) : ' ' ∉ piece := by
  obtain hfingerprint | ⟨key, hkey, text, htext, _, rfl⟩ := mem_tailWith_iff.mp h
  · exact (fingerprint1_eq_some hfingerprint).2.2.2
  · rw [List.mem_append, List.mem_cons, not_or, not_or]
    exact ⟨(notMem_keys key hkey).2.2, by decide, hvalue key text htext⟩

theorem space_notMem_tail {piece : List Char} (h : piece ∈ bridge.tail) : ' ' ∉ piece :=
  space_notMem_tailWith (fun _ _ => space_notMem_written) h

-- What is written behind a missing fingerprint has a key, so that it is no fingerprint.
theorem fingerprint1_tailWith (bridge : Bridge) (value : String → Option (List Char)) :
    (bridge.tailWith value).head?.filter isFingerprint = bridge.fingerprint1 := by
  cases hfingerprint : bridge.fingerprint1 with
  | some text =>
      obtain ⟨hyes, hne, _, _⟩ := fingerprint1_eq_some hfingerprint
      have hpieces : Builder.nonEmpty (some text) = [text] := by simp [Builder.nonEmpty, hne]
      rw [tailWith, hfingerprint, hpieces, List.singleton_append, List.head?_cons, Option.filter_some, if_pos hyes]
  | none =>
      rw [Option.filter_eq_none_iff]
      intro piece hpiece hyes
      obtain hsome | ⟨key, _, text, _, _, rfl⟩ := mem_tailWith_iff.mp (List.mem_of_head? hpiece)
      · rw [hfingerprint] at hsome
        cases hsome
      · have hequals := (isFingerprint_iff.mp hyes).2 '=' (List.mem_append_right _ List.mem_cons_self)
        exact absurd hequals (by decide)

section

variable {builder : Builder} {first second address : List Char} {rest back : List (List Char)}

theorem nonEmpty_transport (hpieces : bridge.rawPieces = first :: second :: rest) :
    Builder.nonEmpty bridge.transport = if first = [] then [] else [first] := by
  rw [transport_of_rawPieces hpieces]
  split
  · rfl
  · rename_i hne
    simp [Builder.nonEmpty, hne]

-- The pieces of the line that is built.
theorem build_rawPieces (hpieces : bridge.rawPieces = first :: second :: rest) (haddress : ' ' ∉ address)
    (hback : ∀ piece ∈ back, ' ' ∉ piece)
    (hparams : builder.params = Builder.nonEmpty bridge.transport ++ address :: back) :
    builder.build.rawPieces =
      if first = [] then if back.length ≤ 1 then [] :: address :: back else address :: back
      else if 1 ≤ back.length then first :: address :: back else [[], first, address] := by
  have hspace : ∀ piece ∈ builder.params, ' ' ∉ piece := by
    intro piece hpiece
    rw [hparams, nonEmpty_transport hpieces, List.mem_append, List.mem_cons] at hpiece
    obtain hfirst | rfl | htail := hpiece
    · split at hfirst
      · cases hfirst
      · rw [List.mem_singleton.mp hfirst]
        have hmem : first ∈ bridge.rawPieces := by
          rw [hpieces]
          exact List.mem_cons_self
        exact space_notMem hmem
    · exact haddress
    · exact hback piece htail
  have hne : builder.params ≠ [] := by
    rw [hparams]
    exact List.append_ne_nil_of_right_ne_nil _ (List.cons_ne_nil _ _)
  rw [Builder.build, rawPieces_join hne hspace, hparams, nonEmpty_transport hpieces]
  by_cases hfirst : first = []
  · simp only [hfirst, if_true, List.nil_append, List.length_cons]
    by_cases hlength : back.length ≤ 1
    · rw [if_pos hlength, if_pos (by omega)]
    · rw [if_neg hlength, if_neg (by omega)]
  · simp only [hfirst, if_false, List.cons_append, List.nil_append, List.length_cons]
    by_cases hlength : 1 ≤ back.length
    · rw [if_pos hlength, if_neg (by omega)]
    · have hnil : back = [] := List.length_eq_zero_iff.mp (by omega)
      rw [if_neg hlength, hnil]
      rfl

end

end ToInet.Circumvention.Bridge
