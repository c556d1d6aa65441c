import ToInet.V3onionservice.V3BackupUtils
import Mathlib.Data.List.Induction

namespace ToInet.V3onionservice

variable {β : Type} {s t : Onions β} {faults : Faults} {savedValues : β → Option ContentValues}

-- What a zip file that is read to its end makes of a directory.
def overlay (dir : Directory β) (entries : List (String × β)) : Directory β :=
  entries.foldl (fun dir entry => dir.insert entry.1 (.file entry.2)) dir

-- What a zip file has under a name; a later entry replaces an earlier one.
def written (entries : List (String × β)) (name : String) : Option β := entries.reverse.lookup name

theorem lookup_overlay (dir : Directory β) (entries : List (String × β)) (name : String) :
    (overlay dir entries).lookup name = ((written entries name).map Entry.file).or (dir.lookup name) := by
  induction entries using List.reverseRecOn with
  | nil => rfl
  | append_singleton entries entry ih =>
      rw [overlay, List.foldl_append, List.foldl_cons, List.foldl_nil, written, List.reverse_append,
        List.reverse_singleton, List.singleton_append, List.lookup_cons]
      by_cases hname : name = entry.1
      · rw [hname, AList.lookup_insert, beq_self_eq_true]
        rfl
      · rw [AList.lookup_insert_ne hname, beq_false_of_ne hname]
        exact ih

theorem written_cons (entry : String × β) (entries : List (String × β)) (name : String) :
    written (entry :: entries) name =
      (written entries name).or (if name = entry.1 then some entry.2 else none) := by
  rw [written, List.reverse_cons, List.lookup_append, List.lookup_cons, List.lookup_nil]
  by_cases hname : name = entry.1
  · rw [hname, beq_self_eq_true, if_pos rfl]
    rfl
  · rw [beq_false_of_ne hname, if_neg hname]
    rfl

theorem write_eq_some {dir next : Directory β} {name : String} {content : β}
    (h : dir.write name content = some next) :
    next = dir.insert name (.file content) ∧ ∀ children, dir.lookup name ≠ some (.directory children) := by
  unfold Directory.write at h
  split at h
  · cases h
  · rename_i hfile
    exact ⟨(Option.some.inj h).symm, hfile⟩

-- A zip file that is read to its end is over the directory then, and has no name of a directory.
theorem extractFromZipInputStream_eq_true {dir : Directory β} {entries : List (String × β)} {broken : Bool}
    {out : Option (Directory β)} (h : extractFromZipInputStream dir broken entries = (true, out)) :
    out = some (overlay dir entries) ∧
      ∀ name children, dir.lookup name = some (.directory children) → written entries name = none := by
  induction entries generalizing dir with
  | nil =>
      obtain ⟨_, rfl⟩ := Prod.mk.inj h
      exact ⟨rfl, fun _ _ _ => rfl⟩
  | cons entry entries ih =>
      obtain ⟨filename, content⟩ := entry
      rw [extractFromZipInputStream] at h
      split at h
      · split at h
        · rename_i next hwrite
          obtain ⟨rfl, hfile⟩ := write_eq_some hwrite
          obtain ⟨hout, hnone⟩ := ih h
          refine ⟨hout, fun name children hdirectory => ?_⟩
          have hne : name ≠ filename := by
            rintro rfl
            exact hfile children hdirectory
          rw [written_cons, if_neg hne, hnone name children (by rw [AList.lookup_insert_ne hne]; exact hdirectory)]
          rfl
        · cases h
      · cases h

theorem lookup_setDir (s : Onions β) (name path : String) (dir : Option (Directory β)) :
    (s.setDir name dir).dirs.lookup path = if path = name then dir else s.dirs.lookup path := by
  cases dir with
  | none =>
      simp only [Onions.setDir, Option.map_none, Option.getD_none]
      split
      · rename_i hpath
        rw [hpath, AList.lookup_erase]
      · rename_i hpath
        rw [AList.lookup_erase_ne hpath]
  | some dir =>
      simp only [Onions.setDir, Option.map_some, Option.getD_some]
      split
      · rename_i hpath
        rw [hpath, AList.lookup_insert]
      · rename_i hpath
        rw [AList.lookup_insert_ne hpath]

theorem lookup_delete (dir : Directory β) (name other : String) :
    (dir.delete name).lookup other =
      if other = name then (dir.lookup other).filter (fun entry => !entry.deletable) else dir.lookup other := by
  unfold Directory.delete
  split
  · rename_i entry hentry
    by_cases hother : other = name
    · rw [hother, if_pos rfl, hentry]
      cases hdeletable : entry.deletable with
      | true => simp [hdeletable, AList.lookup_erase, Option.filter]
      | false => simp [hdeletable, hentry, Option.filter]
    · rw [if_neg hother]
      split
      · rw [AList.lookup_erase_ne hother]
      · rfl
  · rename_i hnone
    by_cases hother : other = name
    · rw [hother, if_pos rfl, hnone]
      rfl
    · rw [if_neg hother]

theorem lookup_foldl_delete (names : List String) (dir : Directory β) (name : String) :
    (names.foldl Directory.delete dir).lookup name =
      if name ∈ names then (dir.lookup name).filter (fun entry => !entry.deletable) else dir.lookup name := by
  induction names generalizing dir with
  | nil => rfl
  | cons other names ih =>
      rw [List.foldl_cons, ih, lookup_delete]
      by_cases hother : name = other
      · have hmem : name ∈ other :: names := hother ▸ List.mem_cons_self
        rw [if_pos hother, if_pos hmem]
        split
        · rw [Option.filter_filter]
          simp only [Bool.and_self]
        · rfl
      · have hmem : name ∈ other :: names ↔ name ∈ names := by simp [hother]
        simp only [if_neg hother, hmem]

-- The clean-up leaves the directories that are not empty.
theorem lookup_deleteFiles (dir : Directory β) (name : String) :
    dir.deleteFiles.lookup name = (dir.lookup name).filter (fun entry => !entry.deletable) := by
  rw [Directory.deleteFiles, lookup_foldl_delete]
  split
  · rfl
  · rename_i hname
    rw [AList.lookup_eq_none.mpr fun hmem => hname (AList.mem_keys.mp hmem)]
    rfl

-- The write to the table is none: it is not reached, the new row is rejected, or each row with
-- the port has the values already.
def RowsKept (s : Onions β) (faults : Faults) : Option ContentValues → Prop
  | none => True
  | some fields =>
      if faults.noCursor || s.rows.all (·.port ≠ some fields.port) then faults.insertRejected = true
      else ∀ row ∈ s.rows, row.port = some fields.port → row.put fields = row

-- The directory of the backup is left as it was: the clean-up finds no directory that was there
-- before, or one with nothing but directories that are not empty; an error finds all that the zip
-- file has, and no configuration file where it is deleted.
def DirKept (s : Onions β) (v3Dir : String) (entries : List (String × β)) (late : Bool) : Report → Prop
  | .portExist => ∀ dir, s.dirs.lookup v3Dir = some dir →
      dir.keys ≠ [] ∧ ∀ name entry, dir.lookup name = some entry → entry.deletable = false
  | _ => ∃ dir, s.dirs.lookup v3Dir = some dir ∧ ∀ name,
      if late = true ∧ name = configFileName then dir.lookup name = none
      else ∀ content, written entries name = some content → dir.lookup name = some (.file content)

theorem save_rows_iff (fields : ContentValues) :
    (s.save faults fields).rows = s.rows ↔ RowsKept s faults (some fields) := by
  simp only [Onions.save, RowsKept]
  by_cases hinserts : (faults.noCursor || s.rows.all (·.port ≠ some fields.port)) = true
  · rw [if_pos hinserts, if_pos hinserts]
    split
    · rename_i hrejected
      exact iff_of_true rfl hrejected
    · rename_i haccepted
      refine iff_of_false (fun hrows => ?_) haccepted
      have hlength := congrArg List.length hrows
      simp [Onions.insert] at hlength
  · rw [if_neg hinserts, if_neg hinserts]
    constructor
    · intro hrows row hmem hport
      have hmap : s.rows.map (fun row => if row.port = some fields.port then row.put fields else row) =
          s.rows.map id := hrows.trans (List.map_id _).symm
      have hsame := List.map_inj_left.mp hmap row hmem
      rw [if_pos hport] at hsame
      exact hsame
    · intro hkept
      have hmap : s.rows.map (fun row => if row.port = some fields.port then row.put fields else row) =
          s.rows.map id := by
        refine List.map_inj_left.mpr fun row hmem => ?_
        split
        · rename_i hport
          exact hkept row hmem hport
        · rfl
      exact hmap.trans (List.map_id _)

theorem save_rows (s : Onions β) (fields : ContentValues) :
    (s.save faults fields).rows =
      if (faults.noCursor || s.rows.all (·.port ≠ some fields.port)) = true then
        if faults.insertRejected = true then s.rows else (s.insert fields).rows
      else (s.update fields).rows := by
  rw [Onions.save, apply_ite Onions.rows, apply_ite Onions.rows]

theorem save_dirs (fields : ContentValues) : (s.save faults fields).dirs = s.dirs := by
  unfold Onions.save
  split
  · split <;> rfl
  · rfl

-- The directories of the table are as before if the rows are, and the directory of the backup is
-- either none of theirs or as before.
theorem unharmed_iff {v3Dir : String} {left : Option (Directory β)}
    (hdirs : ∀ path, t.dirs.lookup path = if path = v3Dir then left else s.dirs.lookup path) :
    Unharmed s t ↔ t.rows = s.rows ∧ ((∀ row ∈ s.rows, knownPath row ≠ some v3Dir) ∨
      left.map (fun dir name => dir.lookup name) =
        (s.dirs.lookup v3Dir).map (fun dir name => dir.lookup name)) := by
  refine and_congr_right fun _ => ⟨fun hkept => ?_, fun hkept row hmem path hpath => ?_⟩
  · by_cases howned : ∃ row ∈ s.rows, knownPath row = some v3Dir
    · obtain ⟨row, hmem, hpath⟩ := howned
      have hsame := hkept row hmem v3Dir hpath
      rw [hdirs, if_pos rfl] at hsame
      exact .inr hsame
    · exact .inl fun row hmem hpath => howned ⟨row, hmem, hpath⟩
  · rw [hdirs]
    split
    · rename_i hsame
      rw [hsame] at hpath ⊢
      exact hkept.resolve_left fun hnone => hnone row hmem hpath
    · rfl

theorem keys_eq_nil_iff (dir : Directory β) : dir.keys = [] ↔ ∀ name, dir.lookup name = none := by
  rw [List.eq_nil_iff_forall_not_mem]
  exact forall_congr' fun name => (AList.mem_keys.symm.not).trans AList.lookup_eq_none.symm

theorem filter_deletable_eq_iff (entry : Option (Entry β)) :
    entry.filter (fun entry => !entry.deletable) = entry ↔
      ∀ value, entry = some value → value.deletable = false := by
  cases entry with
  | none => exact iff_of_true rfl nofun
  | some value => cases hdeletable : value.deletable <;> simp [Option.filter, hdeletable]

-- The clean-up leaves nothing of a zip file.
theorem lookup_deleteFiles_overlay {dir : Directory β} {entries : List (String × β)}
    (hfiles : ∀ name children, dir.lookup name = some (.directory children) → written entries name = none)
    (name : String) :
    ((overlay dir entries).delete configFileName).deleteFiles.lookup name =
      (dir.lookup name).filter (fun entry => !entry.deletable) := by
  have hoverlay : ((overlay dir entries).lookup name).filter (fun entry => !entry.deletable) =
      (dir.lookup name).filter (fun entry => !entry.deletable) := by
    rw [lookup_overlay]
    cases hwritten : written entries name with
    | none => rfl
    | some content =>
        cases hentry : dir.lookup name with
        | none => rfl
        | some entry =>
            cases entry with
            | file _ => rfl
            | directory children =>
                rw [hfiles name children hentry] at hwritten
                cases hwritten
  rw [lookup_deleteFiles, lookup_delete]
  split
  · rw [Option.filter_filter]
    simp only [Bool.and_self]
    exact hoverlay
  · exact hoverlay

theorem dirKept_portExist_iff {v3Dir : String} {entries : List (String × β)} {late : Bool}
    (hfiles : ∀ name children, (s.mkdirs v3Dir).lookup name = some (.directory children) →
      written entries name = none) :
    (((overlay (s.mkdirs v3Dir) entries).delete configFileName).deleteAll).map (fun dir name => dir.lookup name) =
        (s.dirs.lookup v3Dir).map (fun dir name => dir.lookup name) ↔
      DirKept s v3Dir entries late .portExist := by
  have hrest := lookup_deleteFiles_overlay hfiles
  unfold Directory.deleteAll
  cases hdir : s.dirs.lookup v3Dir with
  | none =>
      rw [Onions.mkdirs, hdir] at hrest
      have hkeys := (keys_eq_nil_iff _).mpr hrest
      rw [Onions.mkdirs, hdir, if_pos hkeys]
      exact iff_of_true rfl fun dir hsome => by rw [hdir] at hsome; cases hsome
  | some dir =>
      rw [Onions.mkdirs, hdir, Option.getD_some] at hrest ⊢
      have hkept : DirKept s v3Dir entries late .portExist ↔
          dir.keys ≠ [] ∧ ∀ name entry, dir.lookup name = some entry → entry.deletable = false := by
        simp [DirKept, hdir]
      rw [hkept]
      split
      · rename_i hkeys
        refine iff_of_false nofun fun ⟨hne, hdeletable⟩ => hne ?_
        refine (keys_eq_nil_iff dir).mpr fun name => ?_
        rw [← (filter_deletable_eq_iff _).mpr (hdeletable name), ← hrest]
        exact (keys_eq_nil_iff _).mp hkeys name
      · rename_i hkeys
        rw [Option.map_some, Option.map_some, Option.some_inj, funext_iff]
        constructor
        · intro hsame
          refine ⟨fun hnil => hkeys ((keys_eq_nil_iff _).mpr fun name => ?_), fun name => ?_⟩
          · exact (hsame name).trans ((keys_eq_nil_iff dir).mp hnil name)
          · exact (filter_deletable_eq_iff _).mp ((hrest name).symm.trans (hsame name))
        · rintro ⟨_, hdeletable⟩ name
          exact (hrest name).trans ((filter_deletable_eq_iff _).mpr (hdeletable name))

-- An error leaves the files of the zip file in the directory, all or all but the configuration.
theorem dirKept_error_iff {v3Dir : String} {entries : List (String × β)} {left : Directory β} {late : Bool}
    (hleft : ∀ name, left.lookup name = if late = true ∧ name = configFileName then none
      else (overlay (s.mkdirs v3Dir) entries).lookup name) :
    (some left).map (fun dir name => dir.lookup name) =
        (s.dirs.lookup v3Dir).map (fun dir name => dir.lookup name) ↔
      DirKept s v3Dir entries late .error := by
  cases hdir : s.dirs.lookup v3Dir with
  | none => exact iff_of_false nofun fun ⟨dir, hsome, _⟩ => by rw [hdir] at hsome; cases hsome
  | some dir =>
      have hkept : DirKept s v3Dir entries late .error ↔ ∀ name,
          if late = true ∧ name = configFileName then dir.lookup name = none
          else ∀ content, written entries name = some content → dir.lookup name = some (.file content) := by
        simp [DirKept, hdir]
      rw [hkept, Option.map_some, Option.map_some, Option.some_inj, funext_iff]
      refine forall_congr' fun name => ?_
      rw [hleft]
      split
      · exact eq_comm
      · rw [Onions.mkdirs, hdir, Option.getD_some, lookup_overlay]
        cases hwritten : written entries name with
        | none => exact iff_of_true rfl nofun
        | some content =>
            constructor
            · rintro hsame other hother
              obtain rfl := Option.some.inj hother
              exact hsame.symm
            · exact fun hsame => (hsame content rfl).symm

theorem mkdirs_setDir (s : Onions β) (v3Dir : String) (dir : Directory β) :
    (s.setDir v3Dir (some dir)).mkdirs v3Dir = dir := by
  rw [Onions.mkdirs, lookup_setDir, if_pos rfl, Option.getD_some]

theorem readConfig_eq_some {dir : Directory β} {fields : ContentValues}
    (h : readConfig savedValues faults dir = some fields) :
    ∃ content, dir.lookup configFileName = some (.file content) := by
  unfold readConfig at h
  split at h
  · rename_i content hfile
    exact ⟨content, hfile⟩
  · cases h

-- Where the restoration ends with a collision or an error, and what it has done until then.
theorem extract_cases {v3Dir : String} {dir : Directory β} {report : Report}
    (h : extractConfigFromUnzippedBackupV3 savedValues faults (s.setDir v3Dir (some dir)) v3Dir = (report, t))
    (hreport : report = .portExist ∨ report = .error) :
    readConfig savedValues faults dir = none ∧ report = .error ∧ t.rows = s.rows ∧
        (∀ path, t.dirs.lookup path = if path = v3Dir then some dir else s.dirs.lookup path) ∨
      ∃ fields, readConfig savedValues faults dir = some fields ∧ t.rows = (s.save faults fields).rows ∧
        (faults.noCursor = true ∧ report = .error ∧
            (∀ path, t.dirs.lookup path = if path = v3Dir then some dir else s.dirs.lookup path) ∨
          faults.noCursor = false ∧ report = .error ∧
            (∀ path, t.dirs.lookup path =
              if path = v3Dir then some (dir.delete configFileName) else s.dirs.lookup path) ∨
          faults.noCursor = false ∧ report = .portExist ∧
            ∀ path, t.dirs.lookup path =
              if path = v3Dir then (dir.delete configFileName).deleteAll else s.dirs.lookup path) := by
  have hmade (path : String) : ((s.setDir v3Dir (some dir)).setDir v3Dir (some dir)).dirs.lookup path =
      if path = v3Dir then some dir else s.dirs.lookup path := by
    rw [lookup_setDir, lookup_setDir]
    split <;> rfl
  have hrows (fields : ContentValues) :
      (((s.setDir v3Dir (some dir)).setDir v3Dir (some dir)).save faults fields).rows =
        (s.save faults fields).rows := by
    rw [save_rows, save_rows]
    rfl
  unfold extractConfigFromUnzippedBackupV3 at h
  rw [mkdirs_setDir] at h
  cases hconfig : readConfig savedValues faults dir with
  | none =>
      simp only [hconfig] at h
      obtain ⟨rfl, rfl⟩ := Prod.mk.inj h
      exact .inl ⟨rfl, rfl, rfl, hmade⟩
  | some fields =>
      simp only [hconfig] at h
      refine .inr ⟨fields, rfl, ?_⟩
      cases hcursor : faults.noCursor with
      | true =>
          simp only [hcursor, if_true] at h
          obtain ⟨rfl, rfl⟩ := Prod.mk.inj h
          refine ⟨hrows fields, .inl ⟨rfl, rfl, fun path => ?_⟩⟩
          rw [save_dirs]
          exact hmade path
      | false =>
          simp only [hcursor, Bool.false_eq_true, if_false] at h
          split at h
          · obtain ⟨rfl, _⟩ := Prod.mk.inj h
            obtain hcollision | herror := hreport
            · cases hcollision
            · cases herror
          · split at h
            · obtain ⟨rfl, rfl⟩ := Prod.mk.inj h
              refine ⟨hrows fields, .inr (.inl ⟨rfl, rfl, fun path => ?_⟩)⟩
              rw [lookup_setDir, save_dirs, hmade]
              split <;> rfl
            · obtain ⟨rfl, rfl⟩ := Prod.mk.inj h
              refine ⟨hrows fields, .inr (.inr ⟨rfl, rfl, fun path => ?_⟩)⟩
              rw [lookup_setDir, lookup_setDir, save_dirs, hmade]
              split <;> rfl

-- The rows and the directories of the services are as before, after a collision or an error,
-- exactly if nothing is written to the table and the directory of the backup is none of theirs, or
-- is left as it was.
theorem restoreZipBackupV3_unharmed_iff {backup : BackupName} {zip : Zip β} {report : Report}
    (h : restoreZipBackupV3 savedValues faults s backup zip = (report, t))
    (hreport : report = .portExist ∨ report = .error) :
    let fields := readConfig savedValues faults (overlay (s.mkdirs backup.v3Dir) zip.entries)
    Unharmed s t ↔ RowsKept s faults fields ∧
      ((∀ row ∈ s.rows, knownPath row ≠ some backup.v3Dir) ∨
        DirKept s backup.v3Dir zip.entries (fields.isSome && !faults.noCursor) report) := by
  intro fields
  unfold restoreZipBackupV3 unzip at h
  cases hunzip : extractFromZipInputStream (s.mkdirs backup.v3Dir) zip.broken zip.entries with
  | mk unzipped out =>
      simp only [hunzip] at h
      cases unzipped with
      | false =>
          simp only [Bool.false_eq_true, if_false] at h
          obtain ⟨rfl, _⟩ := Prod.mk.inj h
          obtain hcollision | herror := hreport
          · cases hcollision
          · cases herror
      | true =>
          obtain ⟨rfl, hfiles⟩ := extractFromZipInputStream_eq_true hunzip
          simp only [if_true] at h
          obtain ⟨hconfig, rfl, hrows, hdirs⟩ | ⟨values, hconfig, hrows, hends⟩ := extract_cases h hreport
          · have hfields : fields = none := hconfig
            rw [unharmed_iff hdirs, hfields]
            refine and_congr (iff_of_true hrows trivial) (or_congr_right (dirKept_error_iff fun name => ?_))
            simp
          · have hfields : fields = some values := hconfig
            rw [hfields]
            have hsaved : t.rows = s.rows ↔ RowsKept s faults (some values) := by
              rw [hrows]
              exact save_rows_iff values
            obtain ⟨hcursor, rfl, hdirs⟩ | ⟨hcursor, rfl, hdirs⟩ | ⟨hcursor, rfl, hdirs⟩ := hends
            · rw [unharmed_iff hdirs, hcursor]
              refine and_congr hsaved (or_congr_right (dirKept_error_iff fun name => ?_))
              simp
            · rw [unharmed_iff hdirs, hcursor]
              refine and_congr hsaved (or_congr_right (dirKept_error_iff fun name => ?_))
              obtain ⟨content, hfile⟩ := readConfig_eq_some hconfig
              rw [lookup_delete]
              by_cases hname : name = configFileName
              · rw [if_pos hname, if_pos ⟨rfl, hname⟩, hname, hfile]
                rfl
              · rw [if_neg hname, if_neg fun hlate => hname hlate.2]
            · rw [unharmed_iff hdirs]
              exact and_congr hsaved (or_congr_right (dirKept_portExist_iff hfiles))

-- A service on port 80, in the directory that tor has filled, and one on port 81 that has been restored only.
def hosted : Onions String :=
  { rows := [{ id := 1, name := some "site", domain := some "a.onion", onionPort := some 80
               createdByUser := some 1, enabled := some 1, port := some 80, filepath := some "v380" },
             { id := 2, name := some "old", domain := some "c.onion", onionPort := some 80
               createdByUser := some 1, enabled := some 1, port := some 81, filepath := none }]
    nextId := 3
    dirs := (AList.singleton "v380" (AList.singleton "hostname" (.file "a.onion"))).insert "v381"
      (AList.singleton "hostname" (.file "c.onion")) }

def noFaults : Faults :=
  { configUnreadable := false, noCursor := false, insertRejected := false, renameFails := false
    listFails := false }

def backup : BackupName := { v3Dir := "backup", extension := "zip", named := by decide, last := by decide }

-- A configuration file for the port that is taken, with another name.
def otherValues : ContentValues :=
  { port := 80, name := "other", onionPort := 80, domain := "b.onion", createdByUser := 1, enabled := 1 }

theorem restoreZipBackupV3_unharmed_of_error :
    ∃ t, restoreZipBackupV3 (fun _ => none) noFaults hosted backup
        { entries := [("config.json", "{}")], broken := false } = (.error, t) ∧ Unharmed hosted t := by
  have herror : restoreZipBackupV3 (fun _ => none) noFaults hosted backup
      { entries := [("config.json", "{}")], broken := false } = (.error, _) := rfl
  exact ⟨_, herror, (restoreZipBackupV3_unharmed_iff herror (.inr rfl)).mpr ⟨trivial, .inl (by decide)⟩⟩

-- The collision is found when the row of the service has been overwritten.
theorem restoreZipBackupV3_harms :
    ∃ t, restoreZipBackupV3 (fun _ => some otherValues) noFaults hosted backup
        { entries := [("config.json", "{}")], broken := false } = (.portExist, t) ∧ ¬Unharmed hosted t := by
  refine ⟨_, rfl, fun hunharmed => ?_⟩
  have hname : [some "other", some "old"] = [some "site", some "old"] := congrArg (List.map Row.name) hunharmed.1
  exact absurd hname (by decide)

end ToInet.V3onionservice
