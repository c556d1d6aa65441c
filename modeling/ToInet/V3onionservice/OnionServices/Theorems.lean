import ToInet.Service.OnionServiceColumns.Theorems
import ToInet.V3onionservice.OnionServices

namespace ToInet.V3onionservice

open ToInet.Lib ToInet.Service

variable {β : Type} {uuid : RandomUUID}

-- How many rows have the path of a UUID.
def holders (uuid : RandomUUID) (n : Nat) (rows : List Row) : Nat :=
  rows.countP fun row => row.filepath = some ("v3" ++ uuid.next n)

-- How many enabled rows have the path of a port, or will have it.
def takers (port : Int) (rows : List Row) : Nat :=
  rows.countP fun row => row.enabled = some 1 ∧ knownPath row = some (portPath port)

-- Paths are those of UUIDs, each for one row, or of the port of the row.
structure Hosting (uuid : RandomUUID) (s : Hosted β) : Prop where
  keyed : Keyed s.onions
  ported : ∀ row ∈ s.onions.rows, row.port ≠ none
  known : ∀ row ∈ s.onions.rows, ∀ path, row.filepath = some path →
    (∃ n < s.uuids, path = "v3" ++ uuid.next n) ∨ path = portPath (getInt row.port)
  once : ∀ n, holders uuid n s.onions.rows ≤ 1

theorem holders_cons (n : Nat) (row : Row) (rows : List Row) :
    holders uuid n (row :: rows) =
      holders uuid n rows + if row.filepath = some ("v3" ++ uuid.next n) then 1 else 0 := by
  rw [holders, List.countP_cons, holders]
  simp

theorem takers_cons (port : Int) (row : Row) (rows : List Row) :
    takers port (row :: rows) =
      takers port rows + if row.enabled = some 1 ∧ knownPath row = some (portPath port) then 1 else 0 := by
  rw [takers, List.countP_cons, takers]
  simp

theorem knownPath_eq_uuid_iff {row : Row} {n : Nat} :
    knownPath row = some ("v3" ++ uuid.next n) ↔ row.filepath = some ("v3" ++ uuid.next n) := by
  unfold knownPath
  cases row.filepath with
  | some path => rfl
  | none =>
      cases row.domain with
      | none => rfl
      | some domain =>
          refine iff_of_false (fun h => ?_) nofun
          exact uuid_ne_portPath n _ (Option.some.inj h).symm

theorem filepath_of_unknown {row : Row} (h : knownPath row = none) : row.filepath = none := by
  cases hpath : row.filepath with
  | none => rfl
  | some path => simp [knownPath, hpath] at h

-- A placed row has its port, and the path that it had, its known path, or that of a new UUID.
structure PlacedFrom (uuid : RandomUUID) (low high : Nat) (placedRow row : Row) : Prop where
  port : placedRow.port = row.port
  path : placedRow.filepath = row.filepath ∨ placedRow.filepath = knownPath row ∨
    ∃ m, low ≤ m ∧ m < high ∧ placedRow.filepath = some ("v3" ++ uuid.next m)

theorem PlacedFrom.mono {low low' high high' : Nat} {placedRow row : Row} (h : PlacedFrom uuid low high placedRow row)
    (hlow : low' ≤ low) (hhigh : high ≤ high') : PlacedFrom uuid low' high' placedRow row := by
  refine ⟨h.port, h.path.imp_right (Or.imp_right ?_)⟩
  rintro ⟨m, hm, hlt, hpath⟩
  exact ⟨m, hlow.trans hm, hlt.trans_le hhigh, hpath⟩

section

variable {n : Nat} {rows : List Row}

theorem ids_placed : (placed uuid n rows).map Row.id = rows.map Row.id := by
  induction rows generalizing n with
  | nil => rfl
  | cons row rows ih =>
      by_cases henabled : row.enabled = some 1
      · cases hknown : knownPath row with
        | some path => rw [placed_cons_known henabled hknown, List.map_cons, List.map_cons, ih]
        | none => rw [placed_cons_unknown henabled hknown, List.map_cons, List.map_cons, ih]
      · rw [placed_cons_disabled henabled, List.map_cons, List.map_cons, ih]

theorem mem_placed {placedRow : Row} (h : placedRow ∈ placed uuid n rows) :
    ∃ row ∈ rows, PlacedFrom uuid n (n + drawn rows) placedRow row := by
  induction rows generalizing n with
  | nil => cases h
  | cons row rows ih =>
      have hdrawn := drawn_cons row rows
      have hrest (k : Nat) (hle : n ≤ k) (hk : k + drawn rows ≤ n + drawn (row :: rows))
          (hmem : placedRow ∈ placed uuid k rows) :
          ∃ other ∈ row :: rows, PlacedFrom uuid n (n + drawn (row :: rows)) placedRow other := by
        obtain ⟨other, hother, hplaced⟩ := ih hmem
        exact ⟨other, List.mem_cons_of_mem _ hother, hplaced.mono hle hk⟩
      by_cases henabled : row.enabled = some 1
      · cases hknown : knownPath row with
        | some path =>
            rw [placed_cons_known henabled hknown] at h
            rcases List.mem_cons.mp h with rfl | hmem
            · exact ⟨row, List.mem_cons_self, rfl, .inr (.inl hknown.symm)⟩
            · exact hrest n (Nat.le_refl n) (by omega) hmem
        | none =>
            rw [if_pos ⟨henabled, hknown⟩] at hdrawn
            rw [placed_cons_unknown henabled hknown] at h
            rcases List.mem_cons.mp h with rfl | hmem
            · exact ⟨row, List.mem_cons_self, rfl, .inr (.inr ⟨n, Nat.le_refl n, by omega, rfl⟩)⟩
            · exact hrest (n + 1) (Nat.le_succ n) (by omega) hmem
      · rw [placed_cons_disabled henabled] at h
        rcases List.mem_cons.mp h with rfl | hmem
        · exact ⟨_, List.mem_cons_self, rfl, .inl rfl⟩
        · exact hrest n (Nat.le_refl n) (by omega) hmem

-- A UUID that has been drawn before is given to no other row.
theorem holders_placed_of_lt {m : Nat} (hm : m < n) : holders uuid m (placed uuid n rows) = holders uuid m rows := by
  induction rows generalizing n with
  | nil => rfl
  | cons row rows ih =>
      rw [holders_cons]
      by_cases henabled : row.enabled = some 1
      · cases hknown : knownPath row with
        | some path =>
            rw [placed_cons_known henabled hknown, holders_cons, ih hm, ← hknown]
            simp only [knownPath_eq_uuid_iff]
        | none =>
            have hnew : ¬"v3" ++ uuid.next n = "v3" ++ uuid.next m := by
              rw [String.append_right_inj, uuid.injective.eq_iff]
              omega
            rw [placed_cons_unknown henabled hknown, holders_cons, ih (Nat.lt_succ_of_lt hm),
              filepath_of_unknown hknown]
            simp [hnew]
      · rw [placed_cons_disabled henabled, holders_cons, ih hm]

-- A new UUID is given to one row.
theorem holders_placed_le {m : Nat} (hm : n ≤ m) (hnew : holders uuid m rows = 0) :
    holders uuid m (placed uuid n rows) ≤ 1 := by
  induction rows generalizing n with
  | nil => exact Nat.zero_le 1
  | cons row rows ih =>
      rw [holders_cons] at hnew
      have hrest : holders uuid m rows = 0 := by omega
      by_cases henabled : row.enabled = some 1
      · cases hknown : knownPath row with
        | some path =>
            have hpath : ¬path = "v3" ++ uuid.next m := by
              rintro rfl
              rw [if_pos (knownPath_eq_uuid_iff.mp hknown)] at hnew
              omega
            rw [placed_cons_known henabled hknown, holders_cons, if_neg fun h => hpath (Option.some.inj h)]
            exact ih hm hrest
        | none =>
            rw [placed_cons_unknown henabled hknown, holders_cons]
            rcases Nat.lt_or_eq_of_le hm with hlt | rfl
            · have hne : ¬"v3" ++ uuid.next n = "v3" ++ uuid.next m := by
                rw [String.append_right_inj, uuid.injective.eq_iff]
                omega
              rw [if_neg fun h => hne (Option.some.inj h)]
              exact ih hlt hrest
            · rw [holders_placed_of_lt (Nat.lt_succ_self n), hrest, if_pos rfl]
      · rw [placed_cons_disabled henabled, holders_cons]
        have hrow : ¬row.filepath = some ("v3" ++ uuid.next m) := by
          intro hpath
          rw [if_pos hpath] at hnew
          omega
        rw [if_neg hrow]
        exact ih hm hrest

-- The rows that have the path of a port are those that would have it.
theorem takers_placed (port : Int) :
    (placed uuid n rows).countP (fun row => row.enabled = some 1 ∧ row.filepath = some (portPath port)) =
      takers port rows := by
  induction rows generalizing n with
  | nil => rfl
  | cons row rows ih =>
      rw [takers_cons]
      by_cases henabled : row.enabled = some 1
      · cases hknown : knownPath row with
        | some path =>
            rw [placed_cons_known henabled hknown, List.countP_cons, ih]
            simp [henabled]
        | none =>
            rw [placed_cons_unknown henabled hknown, List.countP_cons, ih]
            simp [uuid_ne_portPath n port]
      · rw [placed_cons_disabled henabled, List.countP_cons, ih]
        simp [henabled]

-- Choosing the paths leaves the takers of a port as they are.
theorem takers_of_placed (port : Int) : takers port (placed uuid n rows) = takers port rows := by
  induction rows generalizing n with
  | nil => rfl
  | cons row rows ih =>
      by_cases henabled : row.enabled = some 1
      · cases hknown : knownPath row with
        | some path =>
            rw [placed_cons_known henabled hknown, takers_cons, takers_cons, ih, hknown]
            rfl
        | none =>
            rw [placed_cons_unknown henabled hknown, takers_cons, takers_cons, ih, hknown]
            simp [knownPath, uuid_ne_portPath n port]
      · rw [placed_cons_disabled henabled, takers_cons, takers_cons, ih]

end

-- Each row that is placed has the path of a UUID drawn so far, or of its port.
theorem Hosting.known_placed {s : Hosted β} (h : Hosting uuid s) {row : Row}
    (hrow : row ∈ placed uuid s.uuids s.onions.rows) {path : String} (hpath : row.filepath = some path) :
    (∃ n < s.uuids + drawn s.onions.rows, path = "v3" ++ uuid.next n) ∨ path = portPath (getInt row.port) := by
  obtain ⟨old, hold, hport, hplaced⟩ := mem_placed hrow
  have hown (hsame : old.filepath = some path) :
      (∃ n < s.uuids + drawn s.onions.rows, path = "v3" ++ uuid.next n) ∨ path = portPath (getInt row.port) := by
    rw [hport]
    refine (h.known old hold path hsame).imp_left ?_
    rintro ⟨n, hn, hname⟩
    exact ⟨n, hn.trans_le (Nat.le_add_right _ _), hname⟩
  rw [hpath] at hplaced
  rcases hplaced with hsame | hknown | ⟨m, _, hm, hname⟩
  · exact hown hsame.symm
  · cases hfile : old.filepath with
    | some own =>
        rw [knownPath, hfile, Option.some_or] at hknown
        exact hown (hfile.trans hknown.symm)
    | none =>
        cases hdomain : old.domain with
        | some domain =>
            rw [knownPath, hfile, hdomain, Option.none_or, Option.map_some, ← hport] at hknown
            exact .inr (Option.some.inj hknown)
        | none => simp [knownPath, hfile, hdomain] at hknown
  · exact .inl ⟨m, hm, Option.some.inj hname⟩

theorem Hosting.holders_eq_zero {s : Hosted β} (h : Hosting uuid s) {n : Nat} (hn : s.uuids ≤ n) :
    holders uuid n s.onions.rows = 0 := by
  rw [holders, List.countP_eq_zero]
  intro row hrow hpath
  rcases h.known row hrow _ (of_decide_eq_true hpath) with ⟨m, hm, hname⟩ | hname
  · rw [String.append_right_inj, uuid.injective.eq_iff] at hname
    omega
  · exact uuid_ne_portPath n _ hname

theorem Hosting.once_placed {s : Hosted β} (h : Hosting uuid s) (n : Nat) :
    holders uuid n (placed uuid s.uuids s.onions.rows) ≤ 1 := by
  rcases Nat.lt_or_ge n s.uuids with hlt | hle
  · rw [holders_placed_of_lt hlt]
    exact h.once n
  · exact holders_placed_le hle (h.holders_eq_zero hle)

-- The directories that tor is configured with when it is started next.
def hiddenServiceDirs (uuid : RandomUUID) (s : Hosted β) : List String :=
  (addV3OnionServicesToTorrc uuid s).1.map HiddenService.path

def DistinctDirs (uuid : RandomUUID) (s : Hosted β) : Prop := (hiddenServiceDirs uuid s).Nodup

theorem configured_torrc {s : Hosted β} (h : Keyed s.onions) :
    Configured uuid s [] s.onions.rows (addV3OnionServicesToTorrc uuid s) :=
  configured_addServices (List.nil_append _).symm h.distinct

-- The directories are distinct where no two enabled rows take the path of one port.
theorem distinctDirs_iff {s : Hosted β} (h : Hosting uuid s) :
    DistinctDirs uuid s ↔ ∀ port, takers port s.onions.rows ≤ 1 := by
  have hcount (path : String) : List.count path (hiddenServiceDirs uuid s) =
      (placed uuid s.uuids s.onions.rows).countP fun row => row.enabled = some 1 ∧ row.filepath = some path := by
    rw [hiddenServiceDirs, (configured_torrc h.keyed).paths, List.count_filterMap, List.countP_filter]
    refine List.countP_congr fun row _ => ?_
    simp [and_comm]
  rw [DistinctDirs, List.nodup_iff_count_le_one]
  constructor
  · intro hall port
    refine le_of_eq_of_le ?_ (hall (portPath port))
    rw [hcount, takers_placed]
  · intro hall path
    rw [hcount]
    by_contra hmany
    -- A path that two rows have is one of the two kinds.
    have hpos : 0 < (placed uuid s.uuids s.onions.rows).countP fun row =>
        row.enabled = some 1 ∧ row.filepath = some path := by omega
    obtain ⟨row, hrow, hpath⟩ := List.countP_pos_iff.mp hpos
    rcases h.known_placed hrow (of_decide_eq_true hpath).2 with ⟨n, _, rfl⟩ | rfl
    · have hle : (placed uuid s.uuids s.onions.rows).countP (fun row =>
          row.enabled = some 1 ∧ row.filepath = some ("v3" ++ uuid.next n)) ≤
          holders uuid n (placed uuid s.uuids s.onions.rows) := by
        refine List.countP_mono_left fun other _ hother => ?_
        exact decide_eq_true (of_decide_eq_true hother).2
      exact hmany (hle.trans (h.once_placed n))
    · rw [takers_placed] at hmany
      exact hmany (hall _)

-- What the paths of a row depend on.
def place (row : Row) : Nat × Option Int × Option Int × Option String × Option String :=
  (row.id, row.enabled, row.port, row.filepath, knownPath row)

theorem takers_of_place {rows others : List Row} (h : rows.map place = others.map place) (port : Int) :
    takers port rows = takers port others := by
  have hcount (rows : List Row) : takers port rows =
      (rows.map place).countP fun p => p.2.1 = some 1 ∧ p.2.2.2.2 = some (portPath port) := by
    rw [List.countP_map]
    rfl
  rw [hcount, hcount, h]

theorem Hosting.of_place {s t : Hosted β} (h : Hosting uuid s)
    (hrows : t.onions.rows.map place = s.onions.rows.map place) (hid : t.onions.nextId = s.onions.nextId)
    (huuids : t.uuids = s.uuids) : Hosting uuid t := by
  have hmem {row : Row} (hrow : row ∈ t.onions.rows) : ∃ old ∈ s.onions.rows, place old = place row :=
    List.mem_map.mp (hrows ▸ List.mem_map_of_mem hrow)
  have hids (rows : List Row) : rows.map Row.id = (rows.map place).map fun p => p.1 := by
    rw [List.map_map]
    rfl
  have hholders (n : Nat) (rows : List Row) : holders uuid n rows =
      (rows.map place).countP fun p => p.2.2.2.1 = some ("v3" ++ uuid.next n) := by
    rw [List.countP_map]
    rfl
  refine ⟨⟨?_, fun row hrow => ?_⟩, fun row hrow => ?_, fun row hrow path hpath => ?_, fun n => ?_⟩
  · rw [hids, hrows, ← hids]
    exact h.keyed.distinct
  · obtain ⟨old, hold, hplace⟩ := hmem hrow
    rw [hid, ← show old.id = row.id from congrArg (fun p => p.1) hplace]
    exact h.keyed.fresh old hold
  · obtain ⟨old, hold, hplace⟩ := hmem hrow
    rw [← show old.port = row.port from congrArg (fun p => p.2.2.1) hplace]
    exact h.ported old hold
  · obtain ⟨old, hold, hplace⟩ := hmem hrow
    rw [← show old.port = row.port from congrArg (fun p => p.2.2.1) hplace, huuids]
    exact h.known old hold path ((congrArg (fun p => p.2.2.2.1) hplace).trans hpath)
  · rw [hholders, hrows, ← hholders]
    exact h.once n

-- A domain is written to a row that has a path, where it makes no difference to the path.
theorem updateNames_place (text : β → String) (rows : List Row) {s : Onions β}
    (hpaths : ∀ row ∈ rows, ∀ other ∈ s.rows, other.id = row.id → other.filepath = row.filepath) :
    (updateNames text s rows).rows.map place = s.rows.map place ∧ (updateNames text s rows).nextId = s.nextId := by
  induction rows generalizing s with
  | nil => exact ⟨rfl, rfl⟩
  | cons row rows ih =>
      have hrest := fun other hother => hpaths other (List.mem_cons_of_mem _ hother)
      rw [updateNames]
      split
      · split
        · exact ⟨rfl, rfl⟩
        · rename_i path hpath
          split
          · exact ih hrest
          · exact ⟨rfl, rfl⟩
          · rename_i content _
            obtain ⟨hplace, hid⟩ := ih (s := updateDomain s row.id _) fun other hother written hwritten hsame => by
              obtain ⟨old, hold, rfl⟩ := List.mem_map.mp hwritten
              rw [apply_ite Row.filepath, ite_self]
              refine hrest other hother old hold ?_
              rw [apply_ite Row.id, ite_self] at hsame
              exact hsame
            refine ⟨hplace.trans ?_, hid⟩
            rw [updateDomain, List.map_map]
            refine List.map_congr_left fun other hother => ?_
            by_cases hid : other.id = row.id
            · have hsame := (hpaths row List.mem_cons_self other hother hid).trans hpath
              simp [place, knownPath, hid, hsame]
            · simp [hid]
      · exact ih hrest

theorem updateV3OnionNames_place (text : β → String) {s : Onions β} (h : (s.rows.map Row.id).Nodup) :
    (updateV3OnionNames text s).rows.map place = s.rows.map place ∧
      (updateV3OnionNames text s).nextId = s.nextId := by
  refine updateNames_place text s.rows fun row hrow other hother hid => ?_
  rw [List.inj_on_of_nodup_map h hother hrow hid]

section

variable {s t : Hosted β}

theorem hosting_addV3OnionServicesToTorrc (h : Hosting uuid s) : Hosting uuid (addV3OnionServicesToTorrc uuid s).2 := by
  obtain ⟨htable, hid, huuids, _⟩ : Configured uuid s [] _ _ := configured_torrc h.keyed
  rw [List.nil_append] at htable
  have hids : (addV3OnionServicesToTorrc uuid s).2.onions.rows.map Row.id = s.onions.rows.map Row.id := by
    rw [htable, ids_placed]
  refine ⟨⟨hids ▸ h.keyed.distinct, fun row hrow => ?_⟩, fun row hrow => ?_, fun row hrow path hpath => ?_, fun n => ?_⟩
  · obtain ⟨old, hold, hsame⟩ := List.mem_map.mp (hids ▸ List.mem_map_of_mem hrow)
    rw [hid, ← hsame]
    exact h.keyed.fresh old hold
  · rw [htable] at hrow
    obtain ⟨old, hold, hplaced⟩ := mem_placed hrow
    rw [hplaced.port]
    exact h.ported old hold
  · rw [htable] at hrow
    rw [huuids]
    exact h.known_placed hrow hpath
  · rw [htable]
    exact h.once_placed n

theorem startTor_place (text : β → String) (h : Hosting uuid s) (made : Store String (Directory β)) :
    (startTor uuid text s made).onions.rows.map place =
        (addV3OnionServicesToTorrc uuid s).2.onions.rows.map place ∧
      (startTor uuid text s made).onions.nextId = (addV3OnionServicesToTorrc uuid s).2.onions.nextId :=
  updateV3OnionNames_place text (s := { (addV3OnionServicesToTorrc uuid s).2.onions with dirs := made })
    (hosting_addV3OnionServicesToTorrc h).keyed.distinct

theorem hosting_startTor (text : β → String) (h : Hosting uuid s) (made : Store String (Directory β)) :
    Hosting uuid (startTor uuid text s made) :=
  (hosting_addV3OnionServicesToTorrc h).of_place (startTor_place text h made).1 (startTor_place text h made).2 rfl

theorem takers_startTor (text : β → String) (h : Hosting uuid s) (made : Store String (Directory β)) (port : Int) :
    takers port (startTor uuid text s made).onions.rows = takers port s.onions.rows := by
  rw [takers_of_place (startTor_place text h made).1, (configured_torrc h.keyed).table, List.nil_append,
    takers_of_placed]

theorem hosting_doSave (h : Hosting uuid s) (name : String) (localPort onionPort : Int) :
    Hosting uuid { s with onions := doSave s.onions name localPort onionPort } := by
  refine ⟨keyed_append h.keyed rfl _, fun row hrow => ?_, fun row hrow path hpath => ?_, fun n => ?_⟩
  · rcases List.mem_append.mp hrow with hold | hnew
    · exact h.ported row hold
    · rw [List.mem_singleton.mp hnew]
      nofun
  · rcases List.mem_append.mp hrow with hold | hnew
    · exact h.known row hold path hpath
    · rw [List.mem_singleton.mp hnew] at hpath
      cases hpath
  · rw [doSave, holders, List.countP_append]
    exact h.once n

theorem takers_doSave (s : Onions β) (name : String) (localPort onionPort port : Int) :
    takers port (doSave s name localPort onionPort).rows = takers port s.rows := by
  rw [doSave, takers, List.countP_append]
  rfl

theorem hosting_doDelete (h : Hosting uuid s) (id : Nat) (localPath : Option String) :
    Hosting uuid { s with onions := doDelete s.onions id localPath } := by
  have hsublist : (s.onions.rows.filter fun row => row.id ≠ id).Sublist s.onions.rows := List.filter_sublist
  exact ⟨⟨h.keyed.distinct.sublist (hsublist.map Row.id), fun row hrow => h.keyed.fresh row (hsublist.subset hrow)⟩,
    fun row hrow => h.ported row (hsublist.subset hrow), fun row hrow => h.known row (hsublist.subset hrow),
    fun n => (hsublist.countP_le).trans (h.once n)⟩

theorem takers_doDelete_le (s : Onions β) (id : Nat) (localPath : Option String) (port : Int) :
    takers port (doDelete s id localPath).rows ≤ takers port s.rows :=
  List.filter_sublist.countP_le

-- Only rows of a port take its path.
theorem Hosting.port_of_known (h : Hosting uuid s) {row : Row} (hrow : row ∈ s.onions.rows) {port : Int}
    (hknown : knownPath row = some (portPath port)) : row.port = some port := by
  have hport : getInt row.port = port := by
    cases hpath : row.filepath with
    | some path =>
        rw [knownPath, hpath, Option.some_or] at hknown
        obtain rfl := Option.some.inj hknown
        rcases h.known row hrow _ hpath with ⟨n, _, hname⟩ | hname
        · exact absurd hname.symm (uuid_ne_portPath n port)
        · exact (portPath_inj.mp hname).symm
    | none =>
        cases hdomain : row.domain with
        | none => simp [knownPath, hpath, hdomain] at hknown
        | some domain =>
            rw [knownPath, hpath, hdomain, Option.none_or, Option.map_some] at hknown
            exact portPath_inj.mp (Option.some.inj hknown)
  obtain ⟨value, hvalue⟩ := Option.ne_none_iff_exists'.mp (h.ported row hrow)
  rw [hvalue] at hport ⊢
  exact congrArg some hport

end

end ToInet.V3onionservice
