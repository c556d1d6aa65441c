import ToInet.Lib.Strtol
import ToInet.Service.OnionServiceColumns
import ToInet.V3onionservice.V3BackupUtils.Theorems

namespace ToInet.Service

open ToInet.Lib ToInet.V3onionservice

variable {β : Type} {uuid : RandomUUID}

theorem portPath_inj {port other : Int} : portPath port = portPath other ↔ port = other := by
  rw [portPath, portPath, String.append_right_inj]
  exact toString_inj

theorem uuid_ne_portPath (n : Nat) (port : Int) : "v3" ++ uuid.next n ≠ portPath port := by
  rw [portPath, Ne, String.append_right_inj]
  exact uuid.not_number n port

theorem choosePath_of_known (uuid : RandomUUID) {row : Row} {path : String} (h : knownPath row = some path)
    (s : Hosted β) :
    (choosePath uuid s row).1 = path ∧ (choosePath uuid s row).2.uuids = s.uuids := by
  unfold knownPath at h
  unfold choosePath
  cases hpath : row.filepath with
  | some own => simpa [hpath] using h
  | none =>
      cases hdomain : row.domain with
      | some domain => simpa [hpath, hdomain, portPath] using h
      | none => simp [hpath, hdomain] at h

theorem choosePath_of_unknown (uuid : RandomUUID) {row : Row} (h : knownPath row = none) (s : Hosted β) :
    (choosePath uuid s row).1 = "v3" ++ uuid.next s.uuids ∧ (choosePath uuid s row).2.uuids = s.uuids + 1 := by
  unfold knownPath at h
  unfold choosePath
  cases hpath : row.filepath with
  | some own => simp [hpath] at h
  | none =>
      cases hdomain : row.domain with
      | some domain => simp [hpath, hdomain] at h
      | none => exact ⟨rfl, rfl⟩

theorem choosePath_dirs (s : Hosted β) (row : Row) : (choosePath uuid s row).2.onions.dirs = s.onions.dirs := by
  unfold choosePath
  split
  · rfl
  · split <;> rfl

theorem addServices_cons (s : Hosted β) (row : Row) (rows : List Row) :
    addServices uuid s (row :: rows) =
      (hiddenService row (choosePath uuid s row).1 :: (addServices uuid (choosePath uuid s row).2 rows).1,
        (addServices uuid (choosePath uuid s row).2 rows).2) :=
  rfl

theorem addServices_dirs (s : Hosted β) (rows : List Row) :
    (addServices uuid s rows).2.onions.dirs = s.onions.dirs := by
  induction rows generalizing s with
  | nil => rfl
  | cons row rows ih => exact (ih _).trans (choosePath_dirs s row)

-- The table after a path has been chosen for the row of an id.
theorem choosePath_rows (s : Hosted β) (row : Row) :
    (choosePath uuid s row).2.onions.rows =
      if row.filepath = none then (updatePath s.onions row.id (choosePath uuid s row).1).rows else s.onions.rows := by
  unfold choosePath
  cases hpath : row.filepath with
  | some own => simp
  | none => cases hdomain : row.domain <;> rfl

-- Each row is put into the configuration with its ports, under its known path if it has one.
theorem mem_addServices_of_known {row : Row} {path : String} (h : knownPath row = some path) {rows : List Row}
    (hrow : row ∈ rows) (s : Hosted β) : hiddenService row path ∈ (addServices uuid s rows).1 := by
  induction rows generalizing s with
  | nil => cases hrow
  | cons other rows ih =>
      rcases List.mem_cons.mp hrow with rfl | hmem
      · have hpath := (choosePath_of_known uuid h s).1
        exact hpath ▸ List.mem_cons_self
      · exact List.mem_cons_of_mem _ (ih hmem _)

theorem ids_addServices (s : Hosted β) (rows : List Row) :
    (addServices uuid s rows).1.map HiddenService.id = rows.map Row.id := by
  induction rows generalizing s with
  | nil => rfl
  | cons row rows ih => exact congrArg (row.id :: ·) (ih _)

-- The ids of a table: distinct, and smaller than that of the next row.
structure Keyed (s : Onions β) : Prop where
  distinct : (s.rows.map Row.id).Nodup
  fresh : ∀ row ∈ s.rows, row.id < s.nextId

theorem keyed_map {s : Onions β} (h : Keyed s) (write : Row → Row) (hwrite : ∀ row, (write row).id = row.id)
    (dirs : Store String (Directory β)) : Keyed { s with rows := s.rows.map write, dirs } := by
  refine ⟨?_, fun row hrow => ?_⟩
  · rw [List.map_map, show Row.id ∘ write = Row.id from funext hwrite]
    exact h.distinct
  · obtain ⟨old, hold, rfl⟩ := List.mem_map.mp hrow
    rw [hwrite]
    exact h.fresh old hold

theorem keyed_append {s : Onions β} (h : Keyed s) {row : Row} (hrow : row.id = s.nextId)
    (dirs : Store String (Directory β)) :
    Keyed { rows := s.rows ++ [row], nextId := s.nextId + 1, dirs } := by
  refine ⟨?_, fun other hother => ?_⟩
  · rw [List.map_append, List.map_singleton, List.nodup_append_comm, List.singleton_append, List.nodup_cons]
    refine ⟨fun hmem => ?_, h.distinct⟩
    obtain ⟨old, hold, hid⟩ := List.mem_map.mp hmem
    have hlt := h.fresh old hold
    omega
  · rcases List.mem_append.mp hother with hold | hnew
    · exact Nat.lt_succ_of_lt (h.fresh other hold)
    · rw [List.mem_singleton.mp hnew, hrow]
      exact Nat.lt_succ_self _

theorem keyed_save {s : Onions β} (h : Keyed s) (faults : Faults) (fields : ContentValues) :
    Keyed (s.save faults fields) := by
  unfold Onions.save
  split
  · split
    · exact h
    · exact keyed_append h rfl s.dirs
  · refine keyed_map h _ (fun row => ?_) s.dirs
    split <;> rfl

-- With distinct ids, what the configuration has for the id of a row is the row's.
theorem eq_of_mem_addServices {rows : List Row} (hdistinct : (rows.map Row.id).Nodup) {row : Row} {path : String}
    (hpath : knownPath row = some path) (hrow : row ∈ rows) {s : Hosted β} {service : HiddenService}
    (hservice : service ∈ (addServices uuid s rows).1) (hid : service.id = row.id) :
    service = hiddenService row path := by
  have hids : (addServices uuid s rows).1.map HiddenService.id = rows.map Row.id := ids_addServices s rows
  rw [← hids] at hdistinct
  exact List.inj_on_of_nodup_map hdistinct hservice (mem_addServices_of_known hpath hrow s) hid

theorem exists_row_of_mem_addServices {rows : List Row} {s : Hosted β} {service : HiddenService}
    (hservice : service ∈ (addServices uuid s rows).1) : ∃ row ∈ rows, row.id = service.id := by
  have hid := List.mem_map_of_mem (f := HiddenService.id) hservice
  rw [ids_addServices] at hid
  exact List.mem_map.mp hid

-- The rows after each enabled one has been given its path; n UUIDs have been drawn before.
def placed (uuid : RandomUUID) (n : Nat) : List Row → List Row
  | [] => []
  | row :: rows =>
      if row.enabled = some 1 then
        match knownPath row with
        | some path => { row with filepath := some path } :: placed uuid n rows
        | none => { row with filepath := some ("v3" ++ uuid.next n) } :: placed uuid (n + 1) rows
      else row :: placed uuid n rows

-- How many UUIDs the rows draw.
def drawn (rows : List Row) : Nat := rows.countP fun row => row.enabled = some 1 ∧ knownPath row = none

-- Only the row itself has its id.
theorem updatePath_append {s : Onions β} {others rows : List Row} {row : Row} (hrows : s.rows = others ++ row :: rows)
    (hdistinct : (s.rows.map Row.id).Nodup) (path : String) :
    (updatePath s row.id path).rows = others ++ { row with filepath := some path } :: rows := by
  have hne : ∀ other ∈ others ++ rows, other.id ≠ row.id := by
    rw [hrows, List.map_append, List.map_cons, List.nodup_middle, ← List.map_append, List.nodup_cons] at hdistinct
    exact fun other hother hid => hdistinct.1 (hid ▸ List.mem_map_of_mem hother)
  have hkeep (kept : List Row) (hkept : ∀ other ∈ kept, other.id ≠ row.id) :
      kept.map (fun other => if other.id = row.id then { other with filepath := some path } else other) = kept := by
    refine (List.map_congr_left fun other hother => ?_).trans (List.map_id kept)
    exact if_neg (hkept other hother)
  rw [updatePath, hrows, List.map_append, List.map_cons, if_pos rfl,
    hkeep others fun other hother => hne other (List.mem_append_left _ hother),
    hkeep rows fun other hother => hne other (List.mem_append_right _ hother)]

theorem choosePath_append {s : Hosted β} {others rows : List Row} {row : Row}
    (hrows : s.onions.rows = others ++ row :: rows) (hdistinct : (s.onions.rows.map Row.id).Nodup) :
    (choosePath uuid s row).2.onions.rows =
      others ++ { row with filepath := some (choosePath uuid s row).1 } :: rows := by
  rw [choosePath_rows]
  split
  · exact updatePath_append hrows hdistinct _
  · rename_i hpath
    obtain ⟨path, hpath⟩ := Option.ne_none_iff_exists'.mp hpath
    have hsame : (choosePath uuid s row).1 = path := by
      rw [choosePath, hpath]
    rw [hsame, hrows, ← hpath]

section

variable {row : Row} {rows : List Row} {n : Nat}

theorem placed_cons_known (henabled : row.enabled = some 1) {path : String} (hknown : knownPath row = some path) :
    placed uuid n (row :: rows) = { row with filepath := some path } :: placed uuid n rows := by
  rw [placed, if_pos henabled, hknown]

theorem placed_cons_unknown (henabled : row.enabled = some 1) (hknown : knownPath row = none) :
    placed uuid n (row :: rows) =
      { row with filepath := some ("v3" ++ uuid.next n) } :: placed uuid (n + 1) rows := by
  rw [placed, if_pos henabled, hknown]

theorem placed_cons_disabled (henabled : row.enabled ≠ some 1) :
    placed uuid n (row :: rows) = row :: placed uuid n rows := by
  rw [placed, if_neg henabled]

theorem drawn_cons (row : Row) (rows : List Row) :
    drawn (row :: rows) = drawn rows + if row.enabled = some 1 ∧ knownPath row = none then 1 else 0 := by
  rw [drawn, List.countP_cons, drawn]
  simp

end

abbrev enabledRows (rows : List Row) : List Row := rows.filter fun row => row.enabled = some 1

-- What the table is after the paths of some rows have been chosen, and what tor is configured with.
structure Configured (uuid : RandomUUID) (s : Hosted β) (others rows : List Row)
    (result : List HiddenService × Hosted β) : Prop where
  table : result.2.onions.rows = others ++ placed uuid s.uuids rows
  nextId : result.2.onions.nextId = s.onions.nextId
  uuids : result.2.uuids = s.uuids + drawn rows
  paths : result.1.map HiddenService.path = (enabledRows (placed uuid s.uuids rows)).filterMap Row.filepath

theorem choosePath_nextId (s : Hosted β) (row : Row) :
    (choosePath uuid s row).2.onions.nextId = s.onions.nextId := by
  unfold choosePath
  split
  · rfl
  · split <;> rfl

theorem configured_addServices {s : Hosted β} {others rows : List Row} (hrows : s.onions.rows = others ++ rows)
    (hdistinct : (s.onions.rows.map Row.id).Nodup) :
    Configured uuid s others rows (addServices uuid s (enabledRows rows)) := by
  induction rows generalizing s others with
  | nil => exact ⟨hrows, rfl, rfl, rfl⟩
  | cons row rows ih =>
      by_cases henabled : row.enabled = some 1
      · have hfilter : enabledRows (row :: rows) = row :: enabledRows rows :=
          List.filter_cons_of_pos (decide_eq_true henabled)
        have hchosen : (choosePath uuid s row).2.onions.rows = _ := choosePath_append hrows hdistinct
        have hnext : ((choosePath uuid s row).2.onions.rows.map Row.id).Nodup := by
          rw [hrows] at hdistinct
          rw [hchosen]
          simpa using hdistinct
        rw [← List.singleton_append, ← List.append_assoc] at hchosen
        obtain ⟨htable, hid, huuids, hpaths⟩ := ih hchosen hnext
        rw [hfilter, addServices_cons]
        cases hknown : knownPath row with
        | some path =>
            obtain ⟨hpath, hsame⟩ := choosePath_of_known uuid hknown s
            rw [hpath, hsame] at htable
            rw [hsame] at huuids hpaths
            refine ⟨?_, hid.trans (choosePath_nextId s row), ?_, ?_⟩
            · rw [placed_cons_known henabled hknown]
              simpa using htable
            · rw [drawn_cons, if_neg (by simp [hknown])]
              simpa using huuids
            · rw [placed_cons_known henabled hknown, List.map_cons, hpaths, hpath]
              simp [enabledRows, henabled, hiddenService]
        | none =>
            obtain ⟨hpath, hsame⟩ := choosePath_of_unknown uuid hknown s
            rw [hpath, hsame] at htable
            rw [hsame] at huuids hpaths
            refine ⟨?_, hid.trans (choosePath_nextId s row), ?_, ?_⟩
            · rw [placed_cons_unknown henabled hknown]
              simpa using htable
            · rw [drawn_cons, if_pos ⟨henabled, hknown⟩]
              exact huuids.trans (by omega)
            · rw [placed_cons_unknown henabled hknown, List.map_cons, hpaths, hpath]
              simp [enabledRows, henabled, hiddenService]
      · have hfilter : enabledRows (row :: rows) = enabledRows rows :=
          List.filter_cons_of_neg (by simpa using henabled)
        rw [← List.singleton_append, ← List.append_assoc] at hrows
        obtain ⟨htable, hid, huuids, hpaths⟩ := ih hrows hdistinct
        rw [hfilter]
        refine ⟨?_, hid, ?_, ?_⟩
        · rw [placed_cons_disabled henabled]
          simpa using htable
        · rw [drawn_cons, if_neg fun h => henabled h.1]
          simpa using huuids
        · rw [placed_cons_disabled henabled, hpaths]
          simp [enabledRows, henabled]

-- UUIDs of one form that are counted up.
def countedUUID : RandomUUID where
  next n := "a1f0c3d2-5b6e-4f70-8a9b-" ++ toString (n : Int)
  injective m n h := by
    rw [String.append_right_inj, toString_inj] at h
    exact Int.ofNat_inj.mp h
  not_number n port h := by
    have hmem : 'a' ∈ decimal port := by
      rw [← toList_toString, ← h, String.toList_append]
      exact List.mem_append_left _ (by decide)
    rcases mem_decimal hmem with hminus | hdigit
    · exact absurd hminus (by decide)
    · exact absurd hdigit (by decide)

end ToInet.Service
