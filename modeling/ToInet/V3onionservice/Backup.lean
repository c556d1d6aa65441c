import ToInet.Util.Prefs.Theorems
import ToInet.V3onionservice.Restored

-- Making the backup of an onion service, and what a restoration makes of it.
namespace ToInet.V3onionservice

open ToInet.Lib ToInet.Service ToInet.Util

variable {β : Type}

-- A file that is written as a text in JSON is read as the same text. parseDouble is (int) Double.parseDouble, and
-- intValue that of a Double.
structure ConfigFile (β : Type) where
  encode : JSONText → β
  decode : β → Option JSONText
  texts : FloatTexts
  parseDouble : String → Option Int
  intValue : BitVec 32 → Int
  decode_encode : ∀ text, decode (encode text) = some text
  parseDouble_toString : ∀ n, FitsInt32 n → parseDouble (toString n) = some n

namespace ConfigFile

-- JSON.toInteger and JSON.toString; none is an exception.
def getInt (file : ConfigFile β) (object : JSONObject) (name : String) : Option Int :=
  match object.opt name with
  | some (.integer value) => some value.toInt
  | some (.long value) => some (toInt32 value.toInt)
  | some (.double bits) => some (file.intValue bits)
  | some (.string value) => file.parseDouble value
  | _ => none

def getString (file : ConfigFile β) (object : JSONObject) (name : String) : Option String :=
  (object.opt name).map fun _ => object.optString file.texts name

def savedValues (file : ConfigFile β) (content : β) : Option ContentValues := do
  let object ← (file.decode content).map parse
  let port ← file.getInt object "port"
  let name ← file.getString object "name"
  let onionPort ← file.getInt object "onion_port"
  let domain ← file.getString object "domain"
  let createdByUser ← file.getInt object "created_by_user"
  let enabled ← file.getInt object "enabled"
  some { port, name, onionPort, domain, createdByUser, enabled }

end ConfigFile

-- JSONObject.put takes a name out for a value that is null.
def putString (config : Store String PrefValue) (name : String) : Option String → Store String PrefValue
  | some value => config.insert name (.string value)
  | none => config.erase name

-- getString of a cursor writes a number in decimal.
def configOf (row : Row) : Store String PrefValue :=
  let config := putString ∅ "name" row.name
  let config := putString config "port" (row.port.map toString)
  let config := putString config "onion_port" (row.onionPort.map toString)
  let config := putString config "domain" row.domain
  let config := putString config "created_by_user" (row.createdByUser.map toString)
  putString config "enabled" (row.enabled.map toString)

-- The configuration file that is left in the directory of the service; none is null in place of the files.
def createFilesForZippingV3 (file : ConfigFile β) (s : Onions β) (relativePath : String) : Option (Onions β) :=
  match s.rows.filter fun row => row.filepath = some relativePath, s.dirs.lookup relativePath with
  | [row], some dir =>
      (dir.write configFileName (file.encode (toText (configOf row)))).map fun dir => s.setDir relativePath (some dir)
  | _, _ => none

def filesForZipping : List String :=
  ["hostname", configFileName, "hs_ed25519_secret_key", "hs_ed25519_public_key"]

-- The entries of the zip file, or none where a file cannot be opened.
def zip (dir : Directory β) (files : List String) : Option (List (String × β)) :=
  files.mapM fun name =>
    match dir.lookup name with
    | some (.file content) => some (name, content)
    | _ => none

-- zip goes through the files even if they are null.
inductive Created (β : Type) where
  | crashed
  | failed (s : Onions β)
  | saved (s : Onions β) (zip : Zip β)

def createV3ZipBackup (file : ConfigFile β) (s : Onions β) (relativePath : String) : Created β :=
  match createFilesForZippingV3 file s relativePath with
  | none => .crashed
  | some s =>
      match zip (s.mkdirs relativePath) filesForZipping with
      | none => .failed s
      | some entries => .saved s { entries, broken := false }

variable {file : ConfigFile β} {s s' t t' : Onions β} {row : Row} {fields : ContentValues}

-- The numbers of the row are ints.
structure Row.Fits (row : Row) : Prop where
  port : ∀ n ∈ row.port, FitsInt32 n
  onionPort : ∀ n ∈ row.onionPort, FitsInt32 n
  createdByUser : ∀ n ∈ row.createdByUser, FitsInt32 n
  enabled : ∀ n ∈ row.enabled, FitsInt32 n

theorem lookup_putString (config : Store String PrefValue) (name : String) (value : Option String) (other : String) :
    (putString config name value).lookup other = if other = name then value.map .string else config.lookup other := by
  cases value with
  | none =>
      rw [putString]
      split
      case isTrue hname =>
        rw [hname]
        exact AList.lookup_erase ..
      case isFalse hname => exact AList.lookup_erase_ne hname
  | some value =>
      rw [putString]
      split
      case isTrue hname =>
        rw [hname]
        exact AList.lookup_insert _
      case isFalse hname => exact AList.lookup_insert_ne hname

-- What is read of a member that has been written as a string.
theorem opt_parse_toText {config : Store String PrefValue} {name : String} {value : Option String}
    (h : config.lookup name = value.map .string) : (parse (toText config)).opt name = value.map .string := by
  rw [JSONObject.opt, parse, toText, Store.lookup_putAll, Store.lookup_putAll, h]
  cases value with
  | none => rfl
  | some value => rfl

theorem getString_parse_toText {config : Store String PrefValue} {name : String} {value : Option String}
    (h : config.lookup name = value.map .string) : file.getString (parse (toText config)) name = value := by
  rw [ConfigFile.getString, JSONObject.optString, opt_parse_toText h]
  cases value with
  | none => rfl
  | some value => rfl

theorem getInt_parse_toText {config : Store String PrefValue} {name : String} {value : Option Int}
    (h : config.lookup name = (value.map toString).map .string) (hfits : ∀ n ∈ value, FitsInt32 n) :
    file.getInt (parse (toText config)) name = value := by
  rw [ConfigFile.getInt, opt_parse_toText h]
  cases value with
  | none => rfl
  | some n => exact file.parseDouble_toString n (hfits n rfl)

-- What the restoration reads of the configuration file of a row: it is an exception if a value is null.
theorem savedValues_configOf (hrow : row.Fits) :
    file.savedValues (file.encode (toText (configOf row))) = some fields ↔ row.put fields = row := by
  have hname : file.getString (parse (toText (configOf row))) "name" = row.name :=
    getString_parse_toText (by simp [configOf, lookup_putString])
  have hdomain : file.getString (parse (toText (configOf row))) "domain" = row.domain :=
    getString_parse_toText (by simp [configOf, lookup_putString])
  have hport : file.getInt (parse (toText (configOf row))) "port" = row.port :=
    getInt_parse_toText (by simp [configOf, lookup_putString]) hrow.port
  have honionPort : file.getInt (parse (toText (configOf row))) "onion_port" = row.onionPort :=
    getInt_parse_toText (by simp [configOf, lookup_putString]) hrow.onionPort
  have hcreated : file.getInt (parse (toText (configOf row))) "created_by_user" = row.createdByUser :=
    getInt_parse_toText (by simp [configOf, lookup_putString]) hrow.createdByUser
  have henabled : file.getInt (parse (toText (configOf row))) "enabled" = row.enabled :=
    getInt_parse_toText (by simp [configOf, lookup_putString]) hrow.enabled
  rw [ConfigFile.savedValues, file.decode_encode]
  simp only [Option.map_some, Option.bind_eq_bind, Option.bind_some, hname, hdomain, hport, honionPort, hcreated,
    henabled]
  obtain ⟨id, name, domain, onionPort, createdByUser, enabled, port, filepath⟩ := row
  simp only [Option.bind_eq_some_iff, Row.put, Row.mk.injEq, true_and, and_true]
  constructor
  · rintro ⟨p, hp, n, hn, o, ho, d, hd, c, hc, e, he, hfields⟩
    obtain rfl := Option.some.inj hfields
    exact ⟨hn.symm, hd.symm, ho.symm, hc.symm, he.symm, hp.symm⟩
  · rintro ⟨hn, hd, ho, hc, he, hp⟩
    exact ⟨_, hp.symm, _, hn.symm, _, ho.symm, _, hd.symm, _, hc.symm, _, he.symm, rfl⟩

def serviceFiles : List String := ["hostname", "hs_ed25519_secret_key", "hs_ed25519_public_key"]

theorem serviceFiles_subset : serviceFiles ⊆ filesForZipping := by decide

theorem filesForZipping_subset : filesForZipping ⊆ ONION_SERVICE_CONFIG_FILES := by decide

theorem ne_configFileName {name : String} (h : name ∈ serviceFiles) : name ≠ configFileName := by
  intro hname
  rw [hname] at h
  exact absurd h (by decide)

theorem written_eq_none {entries : List (String × β)} {name : String} (h : name ∉ entries.map Prod.fst) :
    written entries name = none := by
  rw [written, List.lookup_eq_none_iff]
  intro entry hentry
  rw [bne_iff_ne]
  intro hname
  apply h
  rw [hname]
  exact List.mem_map_of_mem (List.mem_reverse.mp hentry)

-- A zip file has the files under their names.
theorem zip_eq_some {dir : Directory β} {files : List String} {entries : List (String × β)}
    (h : zip dir files = some entries) : entries.map Prod.fst = files ∧
      ∀ name ∈ files, ∃ content, dir.lookup name = some (.file content) ∧ written entries name = some content := by
  induction files generalizing entries with
  | nil =>
      cases h
      exact ⟨rfl, fun name hname => absurd hname List.not_mem_nil⟩
  | cons file files ih =>
      rw [zip, List.mapM_cons] at h
      obtain ⟨entry, hentry, h⟩ := Option.bind_eq_some_iff.mp h
      obtain ⟨rest, hrest, h⟩ := Option.bind_eq_some_iff.mp h
      obtain rfl := Option.some.inj h
      split at hentry
      case h_2 => cases hentry
      case h_1 content hcontent =>
        obtain rfl := Option.some.inj hentry
        obtain ⟨hnames, hcontents⟩ := ih hrest
        refine ⟨by rw [List.map_cons, hnames], fun name hname => ?_⟩
        rw [written_cons]
        by_cases hlater : name ∈ files
        · obtain ⟨later, hlookup, hwritten⟩ := hcontents name hlater
          exact ⟨later, hlookup, by rw [hwritten, Option.some_or]⟩
        · obtain rfl := (List.mem_cons.mp hname).resolve_right hlater
          rw [written_eq_none (hnames.symm ▸ hlater), Option.none_or, if_pos rfl]
          exact ⟨content, hcontent, rfl⟩

-- What a backup that is saved is made of. In the directory of the service it leaves the configuration file.
theorem createV3ZipBackup_saved {relativePath : String} {saved : Zip β}
    (h : createV3ZipBackup file s relativePath = .saved s' saved) : ∃ row ∈ s.rows, row.filepath = some relativePath ∧
      ∃ dir, s.dirs.lookup relativePath = some dir ∧
        s' = s.setDir relativePath
          (some (dir.insert configFileName (.file (file.encode (toText (configOf row)))))) ∧
        saved.broken = false ∧ (∀ entry ∈ saved.entries, entry.1 ∈ filesForZipping) ∧
        written saved.entries configFileName = some (file.encode (toText (configOf row))) ∧
        ∀ name ∈ serviceFiles, ∃ content, dir.lookup name = some (.file content) ∧
          written saved.entries name = some content := by
  rw [createV3ZipBackup, createFilesForZippingV3] at h
  split at h
  case h_1 => cases h
  case h_2 made hmade =>
    split at hmade
    case h_2 => cases hmade
    case h_1 row dir hrows hdir =>
      obtain ⟨next, hwrite, rfl⟩ := Option.map_eq_some_iff.mp hmade
      obtain ⟨rfl, -⟩ := write_eq_some hwrite
      rw [mkdirs_setDir] at h
      have hrow : row ∈ s.rows.filter fun row => row.filepath = some relativePath := by
        rw [hrows]
        exact List.mem_singleton_self row
      split at h
      case h_1 => cases h
      case h_2 entries hzip =>
        cases h
        obtain ⟨hnames, hcontents⟩ := zip_eq_some hzip
        obtain ⟨config, hconfig, hwritten⟩ := hcontents configFileName (by decide)
        rw [AList.lookup_insert] at hconfig
        obtain rfl := Entry.file.inj (Option.some.inj hconfig)
        refine ⟨row, (List.mem_filter.mp hrow).1, of_decide_eq_true (List.mem_filter.mp hrow).2, dir, hdir, rfl, rfl,
          fun entry hentry => hnames ▸ List.mem_map_of_mem hentry, hwritten, fun name hname => ?_⟩
        obtain ⟨content, hcontent, hwritten⟩ := hcontents name (serviceFiles_subset hname)
        rw [AList.lookup_insert_ne (ne_configFileName hname)] at hcontent
        exact ⟨content, hcontent, hwritten⟩

-- A zip file with the files of a service is unpacked over a directory that has no directories under these names.
theorem extractFromZipInputStream_files {dir : Directory β} {entries : List (String × β)}
    (hnames : ∀ entry ∈ entries, entry.1 ∈ ONION_SERVICE_CONFIG_FILES)
    (hfiles : ∀ name children, dir.lookup name ≠ some (.directory children)) :
    extractFromZipInputStream dir false entries = (true, some (overlay dir entries)) := by
  induction entries generalizing dir with
  | nil => rfl
  | cons entry entries ih =>
      obtain ⟨filename, content⟩ := entry
      have hwrite : dir.write filename content = some (dir.insert filename (.file content)) := by
        rw [Directory.write]
        split
        case h_1 children hdirectory => exact absurd hdirectory (hfiles filename children)
        case h_2 => rfl
      rw [extractFromZipInputStream, if_pos (hnames _ List.mem_cons_self), hwrite]
      refine ih (fun entry hentry => hnames entry (List.mem_cons_of_mem _ hentry)) fun name children => ?_
      by_cases hname : name = filename
      · rw [hname, AList.lookup_insert]
        simp
      · rw [AList.lookup_insert_ne hname]
        exact hfiles name children

theorem renameTo_noFaults_isSome (s : Onions β) (source target : String) (dir : Directory β) :
    (s.renameTo noFaults source target dir).isSome = true ↔ source = target ∨ (s.mkdirs target).keys = [] := by
  rw [Onions.renameTo, if_neg (show ¬noFaults.renameFails = true from Bool.false_ne_true)]
  split
  case isTrue hsame => exact iff_of_true rfl (.inl hsame)
  case isFalse hother =>
    split
    case isTrue hempty => exact iff_of_true rfl (.inr hempty)
    case isFalse hfull => exact iff_of_false (by simp) (not_or.mpr ⟨hother, hfull⟩)

-- Without faults, only a configuration file that cannot be read or a directory that is in use keeps a restoration
-- from reporting success.
theorem extract_restored_iff {savedValues : β → Option ContentValues} {v3Dir : String} {dir : Directory β} :
    (extractConfigFromUnzippedBackupV3 savedValues noFaults (s.setDir v3Dir (some dir)) v3Dir).1 = .restored ↔
      ∃ fields, readConfig savedValues noFaults dir = some fields ∧
        (v3Dir = portPath fields.port ∨ (s.mkdirs (portPath fields.port)).keys = []) := by
  rw [extractConfigFromUnzippedBackupV3, mkdirs_setDir]
  cases hconfig : readConfig savedValues noFaults dir with
  | none => simp
  | some fields =>
      have hmkdirs (hne : portPath fields.port ≠ v3Dir) :
          ((((s.setDir v3Dir (some dir)).setDir v3Dir (some dir)).save noFaults fields).setDir v3Dir
            (some (dir.delete configFileName))).mkdirs (portPath fields.port) = s.mkdirs (portPath fields.port) := by
        rw [Onions.mkdirs, Onions.mkdirs, lookup_setDir, if_neg hne, save_dirs, lookup_setDir, if_neg hne,
          lookup_setDir, if_neg hne]
      have hread : (∃ values, some fields = some values ∧
          (v3Dir = portPath values.port ∨ (s.mkdirs (portPath values.port)).keys = [])) ↔
          v3Dir = portPath fields.port ∨ (s.mkdirs (portPath fields.port)).keys = [] := by
        simp
      rw [hread]
      simp only [portPath] at hmkdirs ⊢
      generalize ((((s.setDir v3Dir (some dir)).setDir v3Dir (some dir)).save noFaults fields).setDir v3Dir
        (some (dir.delete configFileName))) = bare at hmkdirs ⊢
      have hrenamed := renameTo_noFaults_isSome bare v3Dir ("v3" ++ toString fields.port) (dir.delete configFileName)
      have hsame : v3Dir = "v3" ++ toString fields.port ∨ (bare.mkdirs ("v3" ++ toString fields.port)).keys = [] ↔
          v3Dir = "v3" ++ toString fields.port ∨ (s.mkdirs ("v3" ++ toString fields.port)).keys = [] := by
        by_cases heq : v3Dir = "v3" ++ toString fields.port
        · exact iff_of_true (.inl heq) (.inl heq)
        · rw [hmkdirs (Ne.symm heq)]
      rw [← hsame, ← hrenamed, if_neg (show ¬noFaults.noCursor = true from Bool.false_ne_true)]
      cases bare.renameTo noFaults v3Dir ("v3" ++ toString fields.port) (dir.delete configFileName) with
      | none => simp [noFaults]
      | some renamed => simp

theorem restoreZip_restored_iff {savedValues : β → Option ContentValues} {backup : BackupName} {saved : Zip β}
    (hbroken : saved.broken = false) (hnames : ∀ entry ∈ saved.entries, entry.1 ∈ ONION_SERVICE_CONFIG_FILES)
    (hnew : s.dirs.lookup backup.v3Dir = none) :
    (restoreZipBackupV3 savedValues noFaults s backup saved).1 = .restored ↔
      ∃ fields, readConfig savedValues noFaults (overlay ∅ saved.entries) = some fields ∧
        (backup.v3Dir = portPath fields.port ∨ (s.mkdirs (portPath fields.port)).keys = []) := by
  have hmade : s.mkdirs backup.v3Dir = ∅ := by rw [Onions.mkdirs, hnew, Option.getD_none]
  have hextracted : extractFromZipInputStream (∅ : Directory β) false saved.entries =
      (true, some (overlay ∅ saved.entries)) := by
    refine extractFromZipInputStream_files hnames fun name children => ?_
    rw [AList.lookup_empty]
    exact (Option.some_ne_none _).symm
  rw [restoreZipBackupV3, unzip, hmade, hbroken, hextracted]
  exact extract_restored_iff

-- The service of a row is on the device under its port, with the files that it had, and everything else is as before.
structure Carried (s : Onions β) (relativePath : String) (fields : ContentValues) (t t' : Onions β) : Prop where
  saved : ∃ row ∈ t'.rows, row.port = some fields.port
  values : ∀ row ∈ t'.rows, row.port = some fields.port → row.put fields = row
  rows : ∀ row : Row, row.port ≠ some fields.port → (row ∈ t'.rows ↔ row ∈ t.rows)
  files : ∃ original dir, s.dirs.lookup relativePath = some original ∧
    t'.dirs.lookup (portPath fields.port) = some dir ∧
    (∀ name ∈ serviceFiles, ∃ content, original.lookup name = some (.file content)) ∧
    ∀ name, dir.lookup name = if name ∈ serviceFiles then original.lookup name else none
  dirs : ∀ path, path ≠ portPath fields.port → t'.dirs.lookup path = t.dirs.lookup path

-- Saving changes no row of another port.
theorem mem_save_iff {faults : Faults} {row : Row} (hport : row.port ≠ some fields.port) :
    row ∈ (s.save faults fields).rows ↔ row ∈ s.rows := by
  rw [save_rows]
  split
  case isTrue =>
    split
    case isTrue => rfl
    case isFalse =>
      rw [Onions.insert, List.mem_append, List.mem_singleton, or_iff_left]
      intro hrow
      exact hport (hrow ▸ rfl)
  case isFalse =>
    rw [Onions.update, List.mem_map]
    constructor
    · intro hrow
      obtain ⟨old, hold, hput⟩ := hrow
      split at hput
      case isTrue => exact absurd (hput ▸ rfl) hport
      case isFalse => exact hput ▸ hold
    · intro hrow
      exact ⟨row, hrow, if_neg hport⟩

-- A backup that has been saved is restored, on a device that has no directory of its name, exactly if no value of the
-- row is null and the directory of the port is free.
theorem backup_restored_iff {relativePath : String} {saved : Zip β} {backup : BackupName}
    (hfits : ∀ row ∈ s.rows, row.Fits) (hcreated : createV3ZipBackup file s relativePath = .saved s' saved)
    (hnew : t.dirs.lookup backup.v3Dir = none) : ∃ row ∈ s.rows, row.filepath = some relativePath ∧
      ((restoreZipBackupV3 file.savedValues noFaults t backup saved).1 = .restored ↔
        ∃ fields, row.put fields = row ∧
          (backup.v3Dir = portPath fields.port ∨ (t.mkdirs (portPath fields.port)).keys = [])) ∧
      ∀ t', restoreZipBackupV3 file.savedValues noFaults t backup saved = (.restored, t') →
        ∃ fields, row.put fields = row ∧ Carried s relativePath fields t t' := by
  obtain ⟨row, hrow, hpath, dir, hdir, -, hbroken, hnames, hconfig, hfiles⟩ := createV3ZipBackup_saved hcreated
  have hread (fields : ContentValues) :
      readConfig file.savedValues noFaults (overlay ∅ saved.entries) = some fields ↔ row.put fields = row := by
    rw [readConfig, lookup_overlay, hconfig, ← savedValues_configOf (hfits row hrow)]
    exact Iff.rfl
  have hlookup (name : String) : ((overlay ∅ saved.entries).delete configFileName).lookup name =
      if name ∈ serviceFiles then dir.lookup name else none := by
    rw [lookup_delete, lookup_overlay, AList.lookup_empty, Option.or_none]
    split
    case isTrue hname =>
      rw [hname, hconfig, if_neg (show configFileName ∉ serviceFiles by decide)]
      rfl
    case isFalse hname =>
      split
      case isTrue hservice =>
        obtain ⟨content, hcontent, hwritten⟩ := hfiles name hservice
        rw [hwritten, hcontent, Option.map_some]
      case isFalse hother =>
        rw [written_eq_none, Option.map_none]
        intro hentry
        obtain ⟨entry, hmem, rfl⟩ := List.mem_map.mp hentry
        have hentry := hnames entry hmem
        simp only [filesForZipping, serviceFiles, List.mem_cons, List.not_mem_nil, or_false] at hentry hother
        tauto
  refine ⟨row, hrow, hpath, ?_, fun t' hrestored => ?_⟩
  · rw [restoreZip_restored_iff hbroken (fun entry hentry => filesForZipping_subset (hnames entry hentry)) hnew]
    simp only [hread]
  · obtain ⟨fields, hfields, hcursor, hrows, hdirs⟩ := restoreZip_restored hrestored
    have hmade : t.mkdirs backup.v3Dir = ∅ := by rw [Onions.mkdirs, hnew, Option.getD_none]
    rw [hmade] at hfields hdirs
    refine ⟨fields, (hread fields).mp hfields, ?_, fun row hrow hport => ?_, fun row hport => ?_, ?_,
      fun path hpath => ?_⟩
    · rw [hrows, exists_mem_save_iff hcursor]
      exact fun hrejected => absurd hrejected Bool.false_ne_true
    · rw [hrows] at hrow
      exact (mem_save hcursor hrow hport).1
    · rw [hrows, mem_save_iff hport]
    · refine ⟨dir, _, hdir, by rw [hdirs, if_pos rfl], fun name hname => ?_, hlookup⟩
      obtain ⟨content, hcontent, -⟩ := hfiles name hname
      exact ⟨content, hcontent⟩
    · rw [hdirs, if_neg hpath]
      split
      case isTrue hsame => rw [hsame, hnew]
      case isFalse => rfl

-- A service on port 80 that tor has made the files of, and how its configuration file is written.
def started : Onions (String ⊕ JSONText) :=
  { rows := [{ id := 1, name := some "site", domain := some "a.onion", onionPort := some 80
               createdByUser := some 1, enabled := some 1, port := some 80, filepath := some "v380" }]
    nextId := 2
    dirs := AList.singleton "v380" (((AList.singleton "hostname" (.file (.inl "a.onion"))).insert
      "hs_ed25519_secret_key" (.file (.inl "secret a"))).insert "hs_ed25519_public_key" (.file (.inl "public a"))) }

def plainFile : ConfigFile (String ⊕ JSONText) where
  encode := .inr
  decode := Sum.getRight?
  texts := { float := fun _ => "", double := fun _ => "" }
  parseDouble text := Prefs.parseInt text.toList
  intValue := fun _ => 0
  decode_encode := fun _ => rfl
  parseDouble_toString := fun n hn => by
    rw [toList_toString]
    exact Prefs.parseInt_decimal hn

def startedValues : ContentValues :=
  { port := 80, name := "site", onionPort := 80, domain := "a.onion", createdByUser := 1, enabled := 1 }

def emptied : Onions (String ⊕ JSONText) := { rows := [], nextId := 1, dirs := ∅ }

theorem backup_restored_started : ∃ s' saved, createV3ZipBackup plainFile started "v380" = .saved s' saved ∧
    ∃ t', restoreZipBackupV3 plainFile.savedValues noFaults emptied backup saved = (.restored, t') ∧
      Carried started "v380" startedValues emptied t' := by
  have hcreated : createV3ZipBackup plainFile started "v380" = .saved _ _ := rfl
  have hfits : ∀ row ∈ started.rows, row.Fits := by
    intro row hrow
    obtain rfl := List.mem_singleton.mp hrow
    constructor <;> decide
  obtain ⟨row, hrow, -, hiff, hcarried⟩ :=
    @backup_restored_iff _ plainFile started _ emptied _ _ backup hfits hcreated rfl
  obtain rfl := List.mem_singleton.mp hrow
  have hrestored := hiff.mpr ⟨startedValues, rfl, .inr rfl⟩
  refine ⟨_, _, hcreated, _, Prod.ext hrestored rfl, ?_⟩
  obtain ⟨fields, hput, hcarries⟩ := hcarried _ (Prod.ext hrestored rfl)
  have hfields : fields = startedValues := by
    simp only [Row.put, Row.mk.injEq, Option.some.injEq, true_and, and_true] at hput
    obtain ⟨port, name, onionPort, domain, createdByUser, enabled⟩ := fields
    obtain ⟨rfl, rfl, rfl, rfl, rfl, rfl⟩ := hput
    rfl
  exact hfields ▸ hcarries

end ToInet.V3onionservice
