import ToInet.Service.OnionServiceColumns.Theorems

-- What tor is configured with after a backup has been restored.
namespace ToInet.V3onionservice

open ToInet.Lib ToInet.Service

variable {β : Type} {s t : Onions β} {faults : Faults} {savedValues : β → Option ContentValues}

theorem renameTo_eq_some {source target : String} {dir : Directory β} (hsource : s.dirs.lookup source = some dir)
    (h : s.renameTo faults source target dir = some t) :
    t.rows = s.rows ∧ ∀ path, t.dirs.lookup path =
      if path = target then some dir else if path = source then none else s.dirs.lookup path := by
  unfold Onions.renameTo at h
  split at h
  · cases h
  · split at h
    · rename_i hsame
      obtain rfl := Option.some.inj h
      refine ⟨rfl, fun path => ?_⟩
      rw [← hsame]
      split
      · rename_i hpath
        rw [hpath, hsource]
      · rfl
    · split at h
      · obtain rfl := Option.some.inj h
        refine ⟨rfl, fun path => ?_⟩
        rw [lookup_setDir, lookup_setDir]
      · cases h

-- A restoration that reports success has saved the row, and the directory of the backup is that
-- of the port now.
theorem extract_restored {v3Dir : String} {dir : Directory β}
    (h : extractConfigFromUnzippedBackupV3 savedValues faults (s.setDir v3Dir (some dir)) v3Dir = (.restored, t)) :
    ∃ fields, readConfig savedValues faults dir = some fields ∧ faults.noCursor = false ∧
      t.rows = (s.save faults fields).rows ∧ ∀ path, t.dirs.lookup path =
        if path = portPath fields.port then some (dir.delete configFileName)
        else if path = v3Dir then none else s.dirs.lookup path := by
  unfold extractConfigFromUnzippedBackupV3 at h
  rw [mkdirs_setDir] at h
  cases hconfig : readConfig savedValues faults dir with
  | none =>
      simp only [hconfig] at h
      cases (Prod.mk.inj h).1
  | some fields =>
      simp only [hconfig] at h
      cases hcursor : faults.noCursor with
      | true =>
          simp only [hcursor, if_true] at h
          cases (Prod.mk.inj h).1
      | false =>
          simp only [hcursor, Bool.false_eq_true, if_false] at h
          split at h
          · rename_i renamed hrename
            obtain ⟨_, rfl⟩ := Prod.mk.inj h
            obtain ⟨hrows, hdirs⟩ := renameTo_eq_some (by rw [lookup_setDir, if_pos rfl]) hrename
            refine ⟨fields, rfl, rfl, hrows.trans ?_, fun path => ?_⟩
            · rw [save_rows]
              exact (save_rows _ _).trans rfl
            · rw [hdirs, lookup_setDir, save_dirs, lookup_setDir, lookup_setDir, portPath]
              split
              · rfl
              · split <;> simp_all
          · split at h <;> cases (Prod.mk.inj h).1

theorem restoreZip_restored {backup : BackupName} {zip : Zip β}
    (h : restoreZipBackupV3 savedValues faults s backup zip = (.restored, t)) :
    ∃ fields, readConfig savedValues faults (overlay (s.mkdirs backup.v3Dir) zip.entries) = some fields ∧
      faults.noCursor = false ∧ t.rows = (s.save faults fields).rows ∧ ∀ path, t.dirs.lookup path =
        if path = portPath fields.port then
          some ((overlay (s.mkdirs backup.v3Dir) zip.entries).delete configFileName)
        else if path = backup.v3Dir then none else s.dirs.lookup path := by
  unfold restoreZipBackupV3 unzip at h
  cases hunzip : extractFromZipInputStream (s.mkdirs backup.v3Dir) zip.broken zip.entries with
  | mk unzipped out =>
      simp only [hunzip] at h
      cases unzipped with
      | false =>
          simp only [Bool.false_eq_true, if_false] at h
          cases (Prod.mk.inj h).1
      | true =>
          obtain ⟨rfl, _⟩ := extractFromZipInputStream_eq_true hunzip
          simp only [if_true] at h
          exact extract_restored h

-- A row with the port of a backup has its values: one that was there, under its own path, or a
-- new one.
theorem mem_save {fields : ContentValues} (hcursor : faults.noCursor = false) {row : Row}
    (hrow : row ∈ (s.save faults fields).rows) (hport : row.port = some fields.port) :
    row.put fields = row ∧ (row.filepath = none ∨
      ∃ old ∈ s.rows, old.port = some fields.port ∧ old.filepath = row.filepath) := by
  rw [save_rows, hcursor, Bool.false_or] at hrow
  split at hrow
  · rename_i hnone
    have hall : ∀ old ∈ s.rows, old.port ≠ some fields.port := by simpa using hnone
    split at hrow
    · exact absurd hport (hall row hrow)
    · rcases List.mem_append.mp hrow with hold | hnew
      · exact absurd hport (hall row hold)
      · obtain rfl := List.mem_singleton.mp hnew
        exact ⟨rfl, .inl rfl⟩
  · obtain ⟨old, hold, hput⟩ := List.mem_map.mp hrow
    split at hput
    · rename_i hsame
      subst hput
      exact ⟨rfl, .inr ⟨old, hold, hsame, rfl⟩⟩
    · rename_i hother
      exact absurd (hput ▸ hport) hother

theorem put_mem_save {fields : ContentValues} (hcursor : faults.noCursor = false) {old : Row} (hold : old ∈ s.rows)
    (hport : old.port = some fields.port) : old.put fields ∈ (s.save faults fields).rows := by
  have hall : ¬(s.rows.all fun row => row.port ≠ some fields.port) = true := by
    rw [List.all_eq_true]
    exact fun h => by simpa [hport] using h old hold
  rw [save_rows, hcursor, Bool.false_or, if_neg hall]
  exact List.mem_map.mpr ⟨old, hold, if_pos hport⟩

theorem exists_mem_save_iff {fields : ContentValues} (hcursor : faults.noCursor = false) :
    (∃ row ∈ (s.save faults fields).rows, row.port = some fields.port) ↔
      (faults.insertRejected = true → ∃ row ∈ s.rows, row.port = some fields.port) := by
  rw [save_rows, hcursor, Bool.false_or]
  by_cases hexists : ∃ row ∈ s.rows, row.port = some fields.port
  · obtain ⟨row, hrow, hport⟩ := hexists
    refine iff_of_true ⟨row.put fields, ?_, rfl⟩ fun _ => ⟨row, hrow, hport⟩
    have hmem : row.put fields ∈ (s.save faults fields).rows := put_mem_save hcursor hrow hport
    rwa [save_rows, hcursor, Bool.false_or] at hmem
  · have hall : (s.rows.all fun row => row.port ≠ some fields.port) = true := by
      rw [List.all_eq_true]
      exact fun row hrow => decide_eq_true fun hport => hexists ⟨row, hrow, hport⟩
    rw [if_pos hall]
    cases hrejected : faults.insertRejected with
    | true => simp
    | false => exact iff_of_true ⟨_, List.mem_append_right _ (List.mem_singleton_self _), rfl⟩ nofun

def keyFiles : List String := ["hs_ed25519_public_key", "hs_ed25519_secret_key"]

-- A backup as the app writes it: a configuration file that can be read, and the keys.
structure ValidBackup (savedValues : β → Option ContentValues) (zip : Zip β) (fields : ContentValues) : Prop where
  complete : zip.broken = false
  names : ∀ entry ∈ zip.entries, entry.1 ∈ ONION_SERVICE_CONFIG_FILES
  config : ∃ content, written zip.entries configFileName = some content ∧ savedValues content = some fields
  keys : ∀ name ∈ keyFiles, ∃ content, written zip.entries name = some content

-- The directory has the key files of the backup.
def HoldsKeys (zip : Zip β) (dirs : Store String (Directory β)) (path : String) : Prop :=
  ∃ dir, dirs.lookup path = some dir ∧ ∀ name ∈ keyFiles, dir.lookup name = (written zip.entries name).map .file

-- Tor is configured with the backup for each row of its port, and there is one.
def Served (uuid : RandomUUID) (zip : Zip β) (fields : ContentValues) (s : Hosted β) : Prop :=
  let (services, next) := addV3OnionServicesToTorrc uuid s
  (∃ row ∈ s.onions.rows, row.port = some fields.port) ∧
    ∀ row ∈ s.onions.rows, row.port = some fields.port → ∃ service ∈ services, service.id = row.id ∧
      service.onionPort = fields.onionPort ∧ service.localPort = fields.port ∧
      HoldsKeys zip next.onions.dirs service.path

-- The backup's service is enabled, it has a row, and no row of its port keeps a path to another
-- directory without the keys.
def InPlace (s : Onions β) (faults : Faults) (v3Dir : String) (zip : Zip β) (fields : ContentValues) : Prop :=
  fields.enabled = 1 ∧
    (faults.insertRejected = true → ∃ row ∈ s.rows, row.port = some fields.port) ∧
    ∀ row ∈ s.rows, row.port = some fields.port → ∀ path, row.filepath = some path →
      path = portPath fields.port ∨ path ≠ v3Dir ∧ HoldsKeys zip s.dirs path

theorem readConfig_overlay {zip : Zip β} {fields values : ContentValues} {dir : Directory β}
    (hvalid : ValidBackup savedValues zip fields)
    (h : readConfig savedValues faults (overlay dir zip.entries) = some values) : values = fields := by
  obtain ⟨content, hwritten, hsaved⟩ := hvalid.config
  rw [readConfig, lookup_overlay, hwritten] at h
  simp only [Option.map_some, Option.some_or] at h
  split at h
  · cases h
  · exact Option.some.inj (h.symm.trans hsaved)

theorem lookup_keyFile {zip : Zip β} {fields : ContentValues} (hvalid : ValidBackup savedValues zip fields)
    (dir : Directory β) {name : String} (hname : name ∈ keyFiles) :
    ((overlay dir zip.entries).delete configFileName).lookup name = (written zip.entries name).map .file := by
  have hne : name ≠ configFileName := by
    rintro rfl
    exact absurd hname (by decide)
  obtain ⟨content, hwritten⟩ := hvalid.keys name hname
  rw [lookup_delete, if_neg hne, lookup_overlay, hwritten]
  rfl

section

variable {uuid : RandomUUID} {uuids : Nat} {zip : Zip β} {fields : ContentValues}

-- What tor is configured with for a row that has the values of the backup.
theorem served_row_iff (hdistinct : (t.rows.map Row.id).Nodup) {row : Row} (hrow : row ∈ t.rows)
    (hput : row.put fields = row) :
    (∃ service ∈ (addV3OnionServicesToTorrc uuid ⟨t, uuids⟩).1, service.id = row.id ∧
      service.onionPort = fields.onionPort ∧ service.localPort = fields.port ∧ HoldsKeys zip t.dirs service.path) ↔
    fields.enabled = 1 ∧ HoldsKeys zip t.dirs (row.filepath.getD (portPath fields.port)) := by
  have hknown : knownPath row = some (row.filepath.getD (portPath fields.port)) := by
    rw [← hput, knownPath]
    cases hpath : row.filepath <;> simp [Row.put, hpath, getInt]
  have hports : (hiddenService row (row.filepath.getD (portPath fields.port))).onionPort = fields.onionPort ∧
      (hiddenService row (row.filepath.getD (portPath fields.port))).localPort = fields.port := by
    rw [← hput]
    exact ⟨rfl, rfl⟩
  have henabled : row.enabled = some 1 ↔ fields.enabled = 1 := by
    rw [← hput]
    exact Option.some_inj
  have hsublist : ((t.rows.filter fun row => row.enabled = some 1).map Row.id).Nodup :=
    hdistinct.sublist (List.filter_sublist.map Row.id)
  constructor
  · rintro ⟨service, hservice, hid, _, _, hholds⟩
    obtain ⟨other, hother, hsame⟩ := exists_row_of_mem_addServices hservice
    rw [List.mem_filter] at hother
    obtain rfl := List.inj_on_of_nodup_map hdistinct hother.1 hrow (hsame.trans hid)
    have hmem : other ∈ t.rows.filter fun row => row.enabled = some 1 := List.mem_filter.mpr hother
    rw [eq_of_mem_addServices hsublist hknown hmem hservice hid] at hholds
    exact ⟨henabled.mp (of_decide_eq_true hother.2), hholds⟩
  · rintro ⟨hone, hholds⟩
    have hmem : row ∈ t.rows.filter fun row => row.enabled = some 1 :=
      List.mem_filter.mpr ⟨hrow, decide_eq_true (henabled.mpr hone)⟩
    exact ⟨_, mem_addServices_of_known hknown hmem _, rfl, hports.1, hports.2, hholds⟩

-- After a restoration that reports success, tor is configured with the backup exactly if it is put
-- in place.
theorem served_iff (uuid : RandomUUID) (uuids : Nat) {backup : BackupName} (hkeyed : Keyed s)
    (hvalid : ValidBackup savedValues zip fields)
    (h : restoreZipBackupV3 savedValues faults s backup zip = (.restored, t)) :
    Served uuid zip fields ⟨t, uuids⟩ ↔ InPlace s faults backup.v3Dir zip fields := by
  obtain ⟨values, hread, hcursor, hrows, hdirs⟩ := restoreZip_restored h
  obtain rfl := readConfig_overlay hvalid hread
  have hdistinct : (t.rows.map Row.id).Nodup := hrows ▸ (keyed_save hkeyed faults values).distinct
  have hholds (path : String) : HoldsKeys zip t.dirs path ↔
      path = portPath values.port ∨ path ≠ backup.v3Dir ∧ HoldsKeys zip s.dirs path := by
    rw [HoldsKeys, hdirs]
    split
    · rename_i hpath
      exact iff_of_true ⟨_, rfl, fun name hname => lookup_keyFile hvalid _ hname⟩ (.inl hpath)
    · rename_i hpath
      split
      · rename_i hsame
        rw [hsame] at hpath ⊢
        simp [hpath]
      · rename_i hother
        simp [hpath, hother, HoldsKeys]
  have hsaved {row : Row} (hrow : row ∈ t.rows) (hport : row.port = some values.port) :=
    mem_save hcursor (hrows ▸ hrow) hport
  have hnext : (addV3OnionServicesToTorrc uuid ⟨t, uuids⟩).2.onions.dirs = t.dirs := addServices_dirs _ _
  have hserved : Served uuid zip values ⟨t, uuids⟩ ↔ (∃ row ∈ t.rows, row.port = some values.port) ∧
      ∀ row ∈ t.rows, row.port = some values.port →
        values.enabled = 1 ∧ HoldsKeys zip t.dirs (row.filepath.getD (portPath values.port)) := by
    simp only [Served, hnext]
    refine and_congr_right fun _ => forall₂_congr fun row hrow => forall_congr' fun hport => ?_
    exact served_row_iff hdistinct hrow (hsaved hrow hport).1
  rw [hserved, hrows, exists_mem_save_iff hcursor, ← hrows, InPlace]
  constructor
  · rintro ⟨hexists, hall⟩
    rw [← exists_mem_save_iff hcursor, ← hrows] at hexists
    obtain ⟨row, hrow, hport⟩ := hexists
    refine ⟨(hall row hrow hport).1, ?_, fun old hold hsame path hpath => ?_⟩
    · rw [← exists_mem_save_iff hcursor, ← hrows]
      exact ⟨row, hrow, hport⟩
    · have hput : old.put values ∈ t.rows := hrows ▸ put_mem_save hcursor hold hsame
      have hkept := (hall _ hput rfl).2
      rw [show (old.put values).filepath = some path from hpath, Option.getD_some] at hkept
      exact (hholds path).mp hkept
  · rintro ⟨hone, hinserted, hpaths⟩
    refine ⟨hinserted, fun row hrow hport => ⟨hone, (hholds _).mpr ?_⟩⟩
    rcases (hsaved hrow hport).2 with hnone | ⟨old, hold, hsame, hpath⟩
    · exact .inl (by rw [hnone, Option.getD_none])
    · cases hfile : row.filepath with
      | none => exact .inl rfl
      | some path => exact hpaths old hold hsame path (hpath.trans hfile)

end

-- The files of a backup for port 80.
def backupOfPort80 : Zip String :=
  { entries := [("config.json", "{}"), ("hostname", "b.onion"), ("hs_ed25519_public_key", "public b"),
      ("hs_ed25519_secret_key", "secret b")]
    broken := false }

theorem validBackup_port80 : ValidBackup (fun _ => some otherValues) backupOfPort80 otherValues :=
  { complete := rfl
    names := by decide
    config := ⟨"{}", by decide, rfl⟩
    keys := by
      intro name hname
      simp only [keyFiles, List.mem_cons, List.not_mem_nil, or_false] at hname
      rcases hname with rfl | rfl
      · exact ⟨"public b", by decide⟩
      · exact ⟨"secret b", by decide⟩ }

-- A service on port 80 that tor has not been started with, beside one on port 81.
def beside : Onions String :=
  { rows := [{ id := 1, name := some "new", domain := none, onionPort := some 80, createdByUser := some 1
               enabled := some 1, port := some 80, filepath := none },
             { id := 2, name := some "site", domain := some "a.onion", onionPort := some 80, createdByUser := some 1
               enabled := some 1, port := some 81, filepath := some "v381" }]
    nextId := 3
    dirs := AList.singleton "v381" (AList.singleton "hs_ed25519_public_key" (.file "public a")) }

theorem keyed_beside : Keyed beside := ⟨by decide, by decide⟩

theorem served_beside : ∃ t, restoreZipBackupV3 (fun _ => some otherValues) noFaults beside backup backupOfPort80 =
    (.restored, t) ∧ Served countedUUID backupOfPort80 otherValues ⟨t, 0⟩ := by
  have hrestored : restoreZipBackupV3 (fun _ => some otherValues) noFaults beside backup backupOfPort80 =
      (.restored, _) := rfl
  refine ⟨_, hrestored, (served_iff countedUUID 0 keyed_beside validBackup_port80 hrestored).mpr ⟨rfl, ?_, ?_⟩⟩
  · exact fun hnone => absurd hnone (by decide)
  · intro old hold hport path hpath
    obtain rfl | hold := List.mem_cons.mp hold
    · cases hpath
    · obtain rfl := List.mem_singleton.mp hold
      exact absurd hport (by decide)

-- A service on port 80 in a directory that has been named by a UUID.
def namedByUUID : Onions String :=
  { rows := [{ id := 1, name := some "site", domain := some "a.onion", onionPort := some 80
               createdByUser := some 1, enabled := some 1, port := some 80
               filepath := some "v3a1f0c3d2-5b6e-4f70-8a9b-0" }]
    nextId := 2
    dirs := AList.singleton "v3a1f0c3d2-5b6e-4f70-8a9b-0"
      (AList.singleton "hs_ed25519_public_key" (.file "public a")) }

-- The row keeps the path to the old keys, and the keys of the backup are where no row points.
theorem restored_not_served :
    ¬∀ (s t : Onions String) (zip : Zip String) (fields : ContentValues), Keyed s →
      ValidBackup (fun _ => some otherValues) zip fields →
      restoreZipBackupV3 (fun _ => some otherValues) noFaults s backup zip = (.restored, t) →
      Served countedUUID zip fields ⟨t, 1⟩ := by
  intro h
  have hkeyed : Keyed namedByUUID := ⟨by decide, by decide⟩
  obtain ⟨_, hserved⟩ := h namedByUUID _ backupOfPort80 otherValues hkeyed validBackup_port80 rfl
  obtain ⟨service, hservice, _, _, _, dir, hdir, hkeys⟩ := hserved _ List.mem_cons_self rfl
  obtain rfl := List.mem_singleton.mp hservice
  have hlookup : dir.lookup "hs_ed25519_public_key" = some (.file "public a") := by
    obtain rfl := Option.some.inj hdir
    rfl
  have hpublic := hkeys "hs_ed25519_public_key" (by decide)
  rw [hlookup] at hpublic
  exact absurd hpublic (by decide)

end ToInet.V3onionservice
