import ToInet.V3onionservice.OnionServices.Theorems
import ToInet.V3onionservice.Restored

-- When the directories of the onion services stay distinct.
namespace ToInet.V3onionservice

open ToInet.Lib ToInet.Service

variable {β : Type} {uuid : RandomUUID} {savedValues : β → Option ContentValues} {text : β → String}

-- The values that a restoration reads.
def restoredValues (savedValues : β → Option ContentValues) (faults : Faults) (s : Onions β) (backup : BackupName)
    (zip : Zip β) : Option ContentValues :=
  let (unzipped, s) := unzip s backup.v3Dir zip
  if unzipped then readConfig savedValues faults (s.mkdirs backup.v3Dir) else none

theorem save_nextId (s : Onions β) (faults : Faults) (fields : ContentValues) :
    (s.save faults fields).nextId =
      if (faults.noCursor || s.rows.all (·.port ≠ some fields.port)) = true then
        if faults.insertRejected = true then s.nextId else s.nextId + 1
      else s.nextId := by
  rw [Onions.save, apply_ite Onions.nextId, apply_ite Onions.nextId]
  rfl

-- The table as it is after a restoration, whatever it reports.
theorem extract_rows (savedValues : β → Option ContentValues) (faults : Faults) (s : Onions β) (v3Dir : String) :
    let t := (extractConfigFromUnzippedBackupV3 savedValues faults s v3Dir).2
    match readConfig savedValues faults (s.mkdirs v3Dir) with
    | none => t.rows = s.rows ∧ t.nextId = s.nextId
    | some fields => t.rows = (s.save faults fields).rows ∧ t.nextId = (s.save faults fields).nextId := by
  simp only [extractConfigFromUnzippedBackupV3]
  cases readConfig savedValues faults (s.mkdirs v3Dir) with
  | none => exact ⟨rfl, rfl⟩
  | some fields =>
      have hsaved : ((s.setDir v3Dir (some (s.mkdirs v3Dir))).save faults fields).rows = (s.save faults fields).rows ∧
          ((s.setDir v3Dir (some (s.mkdirs v3Dir))).save faults fields).nextId = (s.save faults fields).nextId := by
        rw [save_rows, save_rows, save_nextId, save_nextId]
        exact ⟨rfl, rfl⟩
      simp only
      split
      · exact hsaved
      · split
        · rename_i renamed hrename
          unfold Onions.renameTo at hrename
          split at hrename
          · cases hrename
          · split at hrename
            · obtain rfl := Option.some.inj hrename
              exact hsaved
            · split at hrename
              · obtain rfl := Option.some.inj hrename
                exact hsaved
              · cases hrename
        · split
          · exact hsaved
          · exact hsaved

theorem restore_rows (savedValues : β → Option ContentValues) (faults : Faults) (s : Onions β) (backup : BackupName)
    (zip : Zip β) :
    let t := (restoreZipBackupV3 savedValues faults s backup zip).2
    match restoredValues savedValues faults s backup zip with
    | none => t.rows = s.rows ∧ t.nextId = s.nextId
    | some fields => t.rows = (s.save faults fields).rows ∧ t.nextId = (s.save faults fields).nextId := by
  simp only [restoreZipBackupV3, restoredValues]
  cases hunzip : unzip s backup.v3Dir zip with
  | mk unzipped made =>
      have hmade : made.rows = s.rows ∧ made.nextId = s.nextId := by
        have hsame : s.setDir backup.v3Dir _ = made := congrArg Prod.snd hunzip
        rw [← hsame]
        exact ⟨rfl, rfl⟩
      cases unzipped with
      | false => exact hmade
      | true =>
          have hrows := extract_rows savedValues faults made backup.v3Dir
          simp only [if_true] at hrows ⊢
          cases hread : readConfig savedValues faults (made.mkdirs backup.v3Dir) with
          | none =>
              rw [hread] at hrows
              exact ⟨hrows.1.trans hmade.1, hrows.2.trans hmade.2⟩
          | some fields =>
              rw [hread] at hrows
              refine ⟨hrows.1.trans ?_, hrows.2.trans ?_⟩
              · rw [save_rows, save_rows, hmade.1, Onions.insert, Onions.insert, Onions.update, Onions.update, hmade.1,
                  hmade.2]
              · rw [save_nextId, save_nextId, hmade.1, hmade.2]

variable {s t : Hosted β}

-- Rows with the port of a backup that have no directory yet, or that of the port.
def claimants (port : Int) (rows : List Row) : Nat :=
  rows.countP fun row => row.port = some port ∧ (row.filepath = none ∨ row.filepath = some (portPath port))

-- A backup is saved to the rows with its port, or to a new row.
def inserts (s : Onions β) (faults : Faults) (fields : ContentValues) : Bool :=
  faults.noCursor || s.rows.all (·.port ≠ some fields.port)

theorem knownPath_put (row : Row) (fields : ContentValues) :
    knownPath (row.put fields) = some (row.filepath.getD (portPath fields.port)) := by
  unfold knownPath
  cases hpath : row.filepath <;> simp [Row.put, hpath, getInt]

theorem hosting_save (h : Hosting uuid s) (faults : Faults) (fields : ContentValues) :
    Hosting uuid { s with onions := s.onions.save faults fields } := by
  have hkeyed := keyed_save h.keyed faults fields
  have hrows : (s.onions.save faults fields).rows = _ := save_rows s.onions fields
  split at hrows
  · split at hrows
    · refine ⟨hkeyed, fun row hrow => ?_, fun row hrow => ?_, fun n => ?_⟩ <;> simp only [hrows] at *
      · exact h.ported row hrow
      · exact h.known row hrow
      · exact h.once n
    · refine ⟨hkeyed, fun row hrow => ?_, fun row hrow path hpath => ?_, fun n => ?_⟩ <;> simp only [hrows] at *
      · rcases List.mem_append.mp hrow with hold | hnew
        · exact h.ported row hold
        · rw [List.mem_singleton.mp hnew]
          nofun
      · rcases List.mem_append.mp hrow with hold | hnew
        · exact h.known row hold path hpath
        · rw [List.mem_singleton.mp hnew] at hpath
          cases hpath
      · rw [Onions.insert, holders, List.countP_append]
        exact h.once n
  · have hmem {row : Row} (hrow : row ∈ (s.onions.update fields).rows) :
        ∃ old ∈ s.onions.rows, row.port = old.port ∧ row.filepath = old.filepath := by
      obtain ⟨old, hold, rfl⟩ := List.mem_map.mp hrow
      refine ⟨old, hold, ?_⟩
      split
      · rename_i hport
        exact ⟨hport.symm, rfl⟩
      · exact ⟨rfl, rfl⟩
    refine ⟨hkeyed, fun row hrow => ?_, fun row hrow path hpath => ?_, fun n => ?_⟩ <;> simp only [hrows] at *
    · obtain ⟨old, hold, hport, _⟩ := hmem hrow
      exact hport ▸ h.ported old hold
    · obtain ⟨old, hold, hport, hsame⟩ := hmem hrow
      rw [hport]
      exact h.known old hold path (hsame.symm.trans hpath)
    · refine Eq.trans_le ?_ (h.once n)
      rw [holders, Onions.update, List.countP_map]
      refine List.countP_congr fun row _ => ?_
      simp only [Function.comp]
      rw [apply_ite Row.filepath, show (row.put fields).filepath = row.filepath from rfl, ite_self]

-- The rows that an update enables take the path of their port, unless they have another one.
theorem takers_update_self (h : Hosting uuid s) {fields : ContentValues} (henabled : fields.enabled = 1) :
    takers fields.port (s.onions.update fields).rows = claimants fields.port s.onions.rows := by
  rw [takers, Onions.update, List.countP_map, claimants]
  refine List.countP_congr fun row hrow => ?_
  simp only [Function.comp, decide_eq_true_eq]
  split
  · rename_i hport
    rw [knownPath_put, show (row.put fields).enabled = some 1 from congrArg some henabled]
    cases row.filepath <;> simp [hport]
  · rename_i hport
    have hknown : knownPath row ≠ some (portPath fields.port) := fun hknown => hport (h.port_of_known hrow hknown)
    simp [hport, hknown]

theorem takers_update_le (h : Hosting uuid s) {fields : ContentValues} {port : Int}
    (hother : fields.enabled = 1 → port ≠ fields.port) :
    takers port (s.onions.update fields).rows ≤ takers port s.onions.rows := by
  rw [takers, Onions.update, List.countP_map, takers]
  refine List.countP_mono_left fun row hrow htakes => ?_
  simp only [Function.comp, decide_eq_true_eq] at htakes ⊢
  split at htakes
  · rename_i hport
    obtain ⟨henabled, hpath⟩ := htakes
    rw [knownPath_put] at hpath
    have hne := hother (Option.some.inj henabled)
    cases hfile : row.filepath with
    | none =>
        rw [hfile, Option.getD_none, Option.some_inj, portPath_inj] at hpath
        exact absurd hpath.symm hne
    | some path =>
        rw [hfile, Option.getD_some] at hpath
        have hknown : knownPath row = some (portPath port) := by
          rw [knownPath, hfile, Option.some_or, hpath]
        have hsame := Option.some.inj ((h.port_of_known hrow hknown).symm.trans hport)
        exact absurd hsame hne
  · exact htakes

theorem takers_insert (s : Onions β) (fields : ContentValues) (port : Int) :
    takers port (s.insert fields).rows =
      takers port s.rows + if fields.enabled = 1 ∧ fields.port = port then 1 else 0 := by
  rw [Onions.insert, takers, List.countP_append, ← takers, List.countP_singleton]
  simp [knownPath, Row.put, getInt, portPath_inj]

-- A restoration is to enable at most one row for the path of its port.
def OneClaim (savedValues : β → Option ContentValues) (s : Hosted β) : Event β → Prop
  | .restore faults backup zip =>
      ∀ fields, restoredValues savedValues faults s.onions backup zip = some fields → fields.enabled = 1 →
        if inserts s.onions faults fields then
          faults.insertRejected = false → takers fields.port s.onions.rows = 0
        else claimants fields.port s.onions.rows ≤ 1
  | _ => True

theorem takers_save_iff (h : Hosting uuid s) (htakers : ∀ port, takers port s.onions.rows ≤ 1) (faults : Faults)
    (fields : ContentValues) :
    (∀ port, takers port (s.onions.save faults fields).rows ≤ 1) ↔ (fields.enabled = 1 →
      if inserts s.onions faults fields then
        faults.insertRejected = false → takers fields.port s.onions.rows = 0
      else claimants fields.port s.onions.rows ≤ 1) := by
  rw [save_rows, ← inserts]
  split
  · cases hrejected : faults.insertRejected with
    | true => simpa using htakers
    | false =>
        simp only [Bool.false_eq_true, if_false, takers_insert, forall_const]
        constructor
        · intro hall henabled
          have hport := hall fields.port
          rw [if_pos ⟨henabled, rfl⟩] at hport
          omega
        · intro hnone port
          have hport := htakers port
          split
          · rename_i hsame
            have hzero := hnone hsame.1
            rw [hsame.2] at hzero
            omega
          · exact hport
  · by_cases henabled : fields.enabled = 1
    · rw [← takers_update_self h henabled]
      refine ⟨fun hall _ => hall fields.port, fun hself port => ?_⟩
      by_cases hport : port = fields.port
      · rw [hport]
        exact hself henabled
      · exact (takers_update_le h fun _ => hport).trans (htakers port)
    · refine iff_of_true (fun port => ?_) fun hone => absurd hone henabled
      exact (takers_update_le h fun hone => absurd hone henabled).trans (htakers port)

theorem hosting_of_rows (h : Hosting uuid s) {onions : Onions β} (hrows : onions.rows = s.onions.rows)
    (hid : onions.nextId = s.onions.nextId) : Hosting uuid { s with onions } :=
  h.of_place (by rw [hrows]) hid rfl

theorem hosting_step (h : Hosting uuid s) {event : Event β} (hstep : step uuid savedValues text s event = some t) :
    Hosting uuid t := by
  cases event with
  | create name localPort onionPort =>
      rw [step] at hstep
      split at hstep
      · obtain rfl := Option.some.inj hstep
        exact hosting_doSave h name localPort onionPort
      · cases hstep
  | restore faults backup zip =>
      obtain rfl := Option.some.inj hstep
      have hrows := restore_rows savedValues faults s.onions backup zip
      cases hvalues : restoredValues savedValues faults s.onions backup zip with
      | none =>
          rw [hvalues] at hrows
          exact hosting_of_rows h hrows.1 hrows.2
      | some fields =>
          rw [hvalues] at hrows
          exact hosting_of_rows (hosting_save h faults fields) hrows.1 hrows.2
  | startTor made =>
      obtain rfl := Option.some.inj hstep
      exact hosting_startTor text h made
  | delete id localPath =>
      obtain rfl := Option.some.inj hstep
      exact hosting_doDelete h id localPath

theorem takers_step_iff (h : Hosting uuid s) (htakers : ∀ port, takers port s.onions.rows ≤ 1) {event : Event β}
    (hstep : step uuid savedValues text s event = some t) :
    (∀ port, takers port t.onions.rows ≤ 1) ↔ OneClaim savedValues s event := by
  cases event with
  | create name localPort onionPort =>
      rw [step] at hstep
      split at hstep
      · obtain rfl := Option.some.inj hstep
        exact iff_of_true (fun port => takers_doSave s.onions name localPort onionPort port ▸ htakers port) trivial
      · cases hstep
  | restore faults backup zip =>
      obtain rfl := Option.some.inj hstep
      have hrows := restore_rows savedValues faults s.onions backup zip
      cases hvalues : restoredValues savedValues faults s.onions backup zip with
      | none =>
          rw [hvalues] at hrows
          refine iff_of_true (fun port => ?_) fun fields hread => ?_
          · rw [hrows.1]
            exact htakers port
          · rw [hvalues] at hread
            cases hread
      | some fields =>
          rw [hvalues] at hrows
          rw [hrows.1, takers_save_iff h htakers, OneClaim, hvalues]
          simp
  | startTor made =>
      obtain rfl := Option.some.inj hstep
      exact iff_of_true (fun port => takers_startTor text h made port ▸ htakers port) trivial
  | delete id localPath =>
      obtain rfl := Option.some.inj hstep
      exact iff_of_true (fun port => (takers_doDelete_le s.onions id localPath port).trans (htakers port)) trivial

theorem hosting_noServices : Hosting uuid (noServices : Hosted β) :=
  { keyed := ⟨List.nodup_nil, fun _ hrow => nomatch hrow⟩
    ported := fun _ hrow => nomatch hrow
    known := fun _ hrow => nomatch hrow
    once := fun _ => Nat.zero_le 1 }

-- The services have distinct directories in each state of exactly those runs whose restorations make
-- at most one claim to the directory of a port.
theorem distinctDirs_always_iff (uuid : RandomUUID) (savedValues : β → Option ContentValues) (text : β → String)
    (events : List (Event β)) :
    Always (step uuid savedValues text) (DistinctDirs uuid) noServices events ↔
      Allowed (step uuid savedValues text) (OneClaim savedValues) noServices events := by
  refine always_iff_allowed_of_inv (Hosting uuid) (DistinctDirs uuid) _ (fun s event t h => hosting_step h) ?_ ?_
    hosting_noServices List.nodup_nil
  · intro s event t h hdistinct hstep
    rw [distinctDirs_iff (hosting_step h hstep)]
    exact takers_step_iff h ((distinctDirs_iff h).mp hdistinct) hstep
  · intro s event _ hnone
    cases event with
    | create => trivial
    | restore => cases hnone
    | startTor => cases hnone
    | delete => cases hnone

-- Two services on one port, and a backup for it before tor has started.
def restoredTwice : List (Event String) :=
  [.create "site" 80 80, .create "mirror" 80 8080, .restore noFaults backup backupOfPort80]

-- The backup is saved to both rows, and both take the directory of the port.
theorem not_distinctDirs_restoredTwice :
    ¬∀ events,
      Always (step countedUUID (fun _ => some otherValues) id) (DistinctDirs countedUUID) noServices events := by
  intro h
  have hafter := (((h restoredTwice).2 _ rfl).2 _ rfl).2 _ rfl
  have hdirs : ¬[portPath 80, portPath 80].Nodup := by simp
  exact hdirs hafter

end ToInet.V3onionservice
