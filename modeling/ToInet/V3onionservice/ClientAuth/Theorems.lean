import ToInet.Lib.Split
import ToInet.V3onionservice.ClientAuth

-- A key is read from its file as it has been written, and tor is given the keys that are enabled.
namespace ToInet.V3onionservice.ClientAuth

open ToInet.Lib ToInet.Service.OrbotRawEventListener

section

variable {sep : Char} {text : List Char} {parts : List (List Char)}

theorem rdropWhile_append_replicate (n : Nat) :
    (parts ++ List.replicate n []).rdropWhile (· = []) = parts.rdropWhile (· = []) := by
  induction n with
  | zero => rw [List.replicate_zero, List.append_nil]
  | succ n ih =>
      rw [List.replicate_succ', ← List.append_assoc, List.rdropWhile_concat_pos _ _ _ (by simp)]
      exact ih

-- A text is split into two parts or more exactly if it is joined from them, with separators behind the last.
theorem split_eq_iff (hlen : 1 < parts.length) :
    split sep text = parts ↔ (∀ part ∈ parts, sep ∉ part) ∧ parts.getLast? ≠ some [] ∧
      ∃ n, text = [sep].intercalate parts ++ List.replicate n sep := by
  have hne : parts ≠ [] := by
    apply List.ne_nil_of_length_pos
    omega
  constructor
  · intro h
    unfold split at h
    split at h
    case isFalse =>
      rw [← h, List.length_singleton] at hlen
      omega
    case isTrue =>
      have hparts := List.rdropWhile_append_rtakeWhile (p := fun part : List Char => part = []) (l := text.splitOn sep)
      have hblank : (text.splitOn sep).rtakeWhile (· = []) =
          List.replicate ((text.splitOn sep).rtakeWhile (· = [])).length [] :=
        List.eq_replicate_of_mem fun part hpart =>
          of_decide_eq_true (List.mem_rtakeWhile_imp (p := fun part : List Char => part = []) hpart)
      rw [h] at hparts
      refine ⟨fun part hpart => ?_, fun hlast => ?_, ((text.splitOn sep).rtakeWhile (· = [])).length, ?_⟩
      · have hmem : part ∈ text.splitOn sep := by
          rw [← hparts]
          exact List.mem_append_left _ hpart
        exact notMem_of_mem_splitOn hmem
      · have hkept := List.rdropWhile_last_not (fun part : List Char => part = []) (text.splitOn sep) (h ▸ hne)
        simp only [h] at hkept
        rw [List.getLast?_eq_some_getLast hne] at hlast
        exact hkept (decide_eq_true (Option.some.inj hlast))
      · rw [← intercalate_append_replicate hne, ← hblank, hparts, join_splitOn]
  · intro h
    obtain ⟨hparts, hlast, n, rfl⟩ := h
    have hsplit : ([sep].intercalate parts ++ List.replicate n sep).splitOn sep = parts ++ List.replicate n [] := by
      rw [← intercalate_append_replicate hne]
      refine List.splitOn_intercalate sep (fun part hpart => ?_) (List.append_ne_nil_of_left_ne_nil hne _)
      rcases List.mem_append.mp hpart with hmem | hblank
      · exact hparts part hmem
      · rw [List.eq_of_mem_replicate hblank]
        exact List.not_mem_nil
    have hsep : sep ∈ [sep].intercalate parts ++ List.replicate n sep := by
      by_contra hnot
      rw [List.splitOn_eq_singleton hnot] at hsplit
      have hcount := congrArg List.length hsplit
      rw [List.length_singleton, List.length_append] at hcount
      omega
    rw [split, if_pos hsep, hsplit, rdropWhile_append_replicate, List.rdropWhile_eq_self_iff]
    intro hparts hblank
    rw [List.getLast?_eq_some_getLast hparts, of_decide_eq_true hblank] at hlast
    exact hlast rfl

end

section

variable {s t : ClientAuths} {text domain hash : List Char}

-- What a file must hold for a key to be restored: four parts, whatever the second and the third are.
theorem restoreClientAuthBackup_eq_some_iff :
    restoreClientAuthBackup s text = some t ↔ ∃ domain kind algorithm hash, ∃ n,
      (∀ part ∈ [domain, kind, algorithm, hash], ':' ∉ part) ∧ hash ≠ [] ∧
      text = [':'].intercalate [domain, kind, algorithm, hash] ++ List.replicate n ':' ∧
      t = s.insert domain hash := by
  have hparts (domain kind algorithm hash : List Char) : split ':' text = [domain, kind, algorithm, hash] ↔ _ :=
    split_eq_iff (by simp)
  constructor
  · intro h
    unfold restoreClientAuthBackup at h
    split at h
    case h_1 domain kind algorithm hash hsplit =>
      obtain ⟨hcolon, hlast, n, htext⟩ := (hparts domain kind algorithm hash).mp hsplit
      exact ⟨domain, kind, algorithm, hash, n, hcolon, fun hblank => hlast (congrArg some hblank), htext,
        (Option.some.inj h).symm⟩
    case h_2 => cases h
  · intro h
    obtain ⟨domain, kind, algorithm, hash, n, hcolon, hfilled, htext, rfl⟩ := h
    have hlast : [domain, kind, algorithm, hash].getLast? ≠ some [] := fun hblank => hfilled (Option.some.inj hblank)
    have hsplit := (hparts domain kind algorithm hash).mpr ⟨hcolon, hlast, n, htext⟩
    rw [restoreClientAuthBackup, hsplit]

theorem insert_inj {domain' hash' : List Char} (h : s.insert domain hash = s.insert domain' hash') :
    domain = domain' ∧ hash = hash' := by
  have hrows := List.append_cancel_left (congrArg ClientAuths.rows h)
  rw [List.cons.injEq, KeyRow.mk.injEq] at hrows
  exact ⟨hrows.1.2.1, hrows.1.2.2.1⟩

-- The texts of a key that can be read from its file.
structure Readable (domain hash : List Char) : Prop where
  filled : hash ≠ []
  domain : ':' ∉ domain
  hash : ':' ∉ hash

theorem restore_buildV3ClientAuthFile_iff :
    restoreClientAuthBackup s (buildV3ClientAuthFile domain hash) = some (s.insert domain hash) ↔
      Readable domain hash := by
  rw [restoreClientAuthBackup_eq_some_iff]
  constructor
  · intro h
    obtain ⟨_, kind, algorithm, _, n, hcolon, hfilled, -, hinsert⟩ := h
    obtain ⟨rfl, rfl⟩ := insert_inj hinsert
    exact ⟨hfilled, hcolon domain (by simp), hcolon hash (by simp)⟩
  · intro h
    refine ⟨domain, "descriptor".toList, "x25519".toList, hash, 0, ?_, h.filled, ?_, rfl⟩
    · simp only [List.forall_mem_cons, List.not_mem_nil, false_implies, implies_true, and_true]
      exact ⟨h.domain, by decide, by decide, h.hash⟩
    · rw [buildV3ClientAuthFile]
      simp

-- Only a file with the extension is read.
theorem onActivityResult_eq_some_iff {filename : List Char} :
    onActivityResult s filename text = some t ↔
      CLIENT_AUTH_FILE_EXTENSION <:+ filename ∧ restoreClientAuthBackup s text = some t := by
  rw [onActivityResult, ← List.isSuffixOf_iff_suffix]
  split
  case isTrue hextension => exact (and_iff_right hextension).symm
  case isFalse hother => exact iff_of_false (by simp) fun h => hother h.1

theorem suffix_doBackup (typed : List Char) : CLIENT_AUTH_FILE_EXTENSION <:+ doBackup typed := by
  simp only [doBackup]
  split
  case isTrue hextension => exact List.isSuffixOf_iff_suffix.mp hextension
  case isFalse => exact List.suffix_append ..

-- A text has no character outside of its class.
theorem notMem_of_ofClass {ranges : List (Char × Char)} {count : Nat} {c : Char} (h : ofClass ranges count text = true)
    (hranges : ∀ range ∈ ranges, c < range.1 ∨ range.2 < c) : c ∉ text := by
  intro hc
  rw [ofClass, Bool.and_eq_true, List.all_eq_true] at h
  obtain ⟨range, hrange, hin⟩ := List.any_eq_true.mp (h.2 c hc)
  rw [Bool.and_eq_true, decide_eq_true_eq, decide_eq_true_eq] at hin
  rcases hranges range hrange with hlow | hhigh
  · exact absurd hlow (Char.not_lt.mpr hin.1)
  · exact absurd hhigh (Char.not_lt.mpr hin.2)

theorem readable_of_checkInput {onionUrl keyHash : List Char} (h : checkInput onionUrl keyHash = true) :
    Readable (sanitizeOnionDomainTextField onionUrl) keyHash := by
  rw [checkInput, Bool.and_eq_true] at h
  refine ⟨?_, notMem_of_ofClass h.1 (by decide), notMem_of_ofClass h.2 (by decide)⟩
  rintro rfl
  cases h.2

-- Every key of the table can be read from its file.
def AllReadable (s : ClientAuths) : Prop := ∀ row ∈ s.rows, Readable row.domain row.hash

theorem AllReadable.insert (hs : AllReadable s) (hkey : Readable domain hash) : AllReadable (s.insert domain hash) := by
  intro row hrow
  rcases List.mem_append.mp hrow with hold | hnew
  · exact hs row hold
  · obtain rfl := List.mem_singleton.mp hnew
    exact hkey

theorem AllReadable.restore {filename : List Char} (hs : AllReadable s)
    (h : onActivityResult s filename text = some t) : AllReadable t := by
  obtain ⟨-, hrestored⟩ := onActivityResult_eq_some_iff.mp h
  obtain ⟨domain, kind, algorithm, hash, n, hcolon, hfilled, -, rfl⟩ :=
    restoreClientAuthBackup_eq_some_iff.mp hrestored
  exact hs.insert ⟨hfilled, hcolon domain (by simp), hcolon hash (by simp)⟩

theorem rows_addClientAuthToTorrc (calls : Calls) (v3AuthBasePath : List Char) (s : ClientAuths) :
    (addClientAuthToTorrc calls v3AuthBasePath s).2.rows = s.rows := by
  rw [addClientAuthToTorrc]
  split <;> rfl

theorem AllReadable.step {event : Event} (hs : AllReadable s) (h : ClientAuth.step s event = some t) :
    AllReadable t := by
  cases event with
  | create onionUrl keyHash =>
      simp only [ClientAuth.step] at h
      split at h
      case isTrue hinput =>
        obtain rfl := Option.some.inj h
        exact hs.insert (readable_of_checkInput hinput)
      case isFalse => cases h
  | restore filename authText =>
      obtain rfl := Option.some.inj h
      cases hrestored : onActivityResult s filename authText with
      | none => exact hs
      | some t => exact hs.restore hrestored
  | check id isChecked =>
      obtain rfl := Option.some.inj h
      intro row hrow
      obtain ⟨old, hold, rfl⟩ := List.mem_map.mp hrow
      split
      case isTrue => exact hs old hold
      case isFalse => exact hs old hold
  | delete id =>
      obtain rfl := Option.some.inj h
      exact fun row hrow => hs row (List.mem_of_mem_filter hrow)
  | startTor calls v3AuthBasePath =>
      obtain rfl := Option.some.inj h
      intro row hrow
      rw [rows_addClientAuthToTorrc] at hrow
      exact hs row hrow

theorem allReadable_of_run {events : List Event} (hrun : run ClientAuth.step noKeys events = some s) :
    AllReadable s :=
  run_induction AllReadable (fun _ _ _ hs hstep => hs.step hstep) (fun _ hrow => absurd hrow List.not_mem_nil) hrun

-- Whatever has been done with the table, the backup of each of its keys is restored as the same key on any device.
theorem backup_restores {events : List Event} {row : KeyRow} {fails : Bool} (typed : List Char)
    (hrun : run ClientAuth.step noKeys events = some s) (hrow : row ∈ s.rows)
    (hsaved : createV3AuthBackup fails row.domain row.hash = some text) (device : ClientAuths) :
    onActivityResult device (doBackup typed) text = some (device.insert row.domain row.hash) := by
  rw [createV3AuthBackup] at hsaved
  split at hsaved
  case isTrue => cases hsaved
  case isFalse =>
    obtain rfl := Option.some.inj hsaved
    exact onActivityResult_eq_some_iff.mpr
      ⟨suffix_doBackup typed, restore_buildV3ClientAuthFile_iff.mpr (allReadable_of_run hrun row hrow)⟩

-- A key that is entered.
def oneKey : List Event := [.create (List.replicate 56 'a' ++ ".onion".toList) (List.replicate 52 'A')]

theorem backup_restores_oneKey : ∃ s, run ClientAuth.step noKeys oneKey = some s ∧ ∃ row ∈ s.rows,
    ∃ text, createV3AuthBackup false row.domain row.hash = some text ∧
      onActivityResult noKeys (doBackup "a".toList) text = some (noKeys.insert row.domain row.hash) := by
  have hrun : run ClientAuth.step noKeys oneKey = some _ := rfl
  have hsaved (row : KeyRow) : createV3AuthBackup false row.domain row.hash = some _ := rfl
  exact ⟨_, hrun, _, List.mem_cons_self, _, hsaved _, backup_restores _ hrun List.mem_cons_self (hsaved _) noKeys⟩

end

section

variable {written : Nat → Written} {files : Store (List Char) (List Char)}

theorem authFile_inj {i j : Nat} : authFile i = authFile j ↔ i = j := by
  rw [authFile, authFile, List.append_left_inj, decimal_injective.eq_iff, Int.natCast_inj]

-- Either all files are written, or an exception leaves the loop.
theorem addFiles_fst (i : Nat) (rows : List KeyRow) (files : Store (List Char) (List Char)) :
    (addFiles written i rows files).1 =
      if ∀ k < rows.length, written (i + k) = .whole then some (i + rows.length) else none := by
  induction rows generalizing i files with
  | nil => simp [addFiles]
  | cons row rows ih =>
      have hall : (∀ k < (row :: rows).length, written (i + k) = .whole) ↔
          written i = .whole ∧ ∀ k < rows.length, written (i + 1 + k) = .whole := by
        rw [List.length_cons, Nat.forall_lt_succ_left]
        simp only [Nat.add_zero, Nat.add_assoc, Nat.add_comm 1]
      cases hfirst : written i with
      | whole =>
          have hlength : i + 1 + rows.length = i + (row :: rows).length := by
            rw [List.length_cons]
            omega
          rw [addFiles, hfirst]
          simp only [ih, hall, hfirst, true_and, hlength]
      | thrown left =>
          have hnot : ¬∀ k < (row :: rows).length, written (i + k) = .whole := by
            rw [hall, hfirst]
            exact fun h => Written.noConfusion h.1
          rw [addFiles, hfirst, if_neg hnot]

-- Files of other names stay.
theorem lookup_addFiles_of_ne {name : List Char} {i : Nat} {rows : List KeyRow}
    (h : ∀ k < rows.length, name ≠ authFile (i + k)) :
    (addFiles written i rows files).2.lookup name = files.lookup name := by
  induction rows generalizing i files with
  | nil => rfl
  | cons row rows ih =>
      have hne : name ≠ authFile i := h 0 (Nat.succ_pos _)
      rw [addFiles]
      split
      case h_1 =>
        rw [ih fun k hk => ?_, AList.lookup_insert_ne hne]
        rw [Nat.add_assoc, Nat.add_comm 1]
        exact h (k + 1) (Nat.succ_lt_succ hk)
      case h_2 left _ =>
        cases left with
        | none => rfl
        | some content => exact AList.lookup_insert_ne hne

theorem lookup_addFiles {i k : Nat} {rows : List KeyRow} {row : KeyRow}
    (hwhole : ∀ k < rows.length, written (i + k) = .whole) (hrow : rows[k]? = some row) :
    (addFiles written i rows files).2.lookup (authFile (i + k)) =
      some (buildV3ClientAuthFile row.domain row.hash) := by
  induction rows generalizing i k files with
  | nil => cases hrow
  | cons first rows ih =>
      have hfirst : written i = .whole := hwhole 0 (Nat.succ_pos _)
      rw [addFiles, hfirst]
      cases k with
      | zero =>
          obtain rfl := Option.some.inj hrow
          rw [lookup_addFiles_of_ne fun k _ => ?_, Nat.add_zero, AList.lookup_insert]
          rw [Ne, authFile_inj]
          omega
      | succ k =>
          rw [Nat.add_comm k, ← Nat.add_assoc]
          refine ih (fun k hk => ?_) hrow
          rw [Nat.add_assoc, Nat.add_comm 1]
          exact hwhole (k + 1) (Nat.succ_lt_succ hk)

end

section

variable {s t : ClientAuths} {calls : Calls} {v3AuthBasePath torrc : List Char}

-- The files of the directory are those of the keys that are enabled, and each is imported as its key.
structure Exported (s t : ClientAuths) : Prop where
  names : ∀ name, name ∈ t.files ↔ ∃ i < s.enabledRows.length, name = authFile i
  keys : ∀ i row, s.enabledRows[i]? = some row → ∃ text, t.files.lookup (authFile i) = some text ∧
    ∀ device, onActivityResult device (authFile i) text = some (device.insert row.domain row.hash)

-- Every file has been written.
def AllWritten (calls : Calls) (s : ClientAuths) : Prop := ∀ i < s.enabledRows.length, calls.written i = .whole

instance (calls : Calls) (s : ClientAuths) : Decidable (AllWritten calls s) :=
  inferInstanceAs (Decidable (∀ i < s.enabledRows.length, calls.written i = .whole))

theorem exported_addFiles (hs : AllReadable s) (hwhole : AllWritten calls s) :
    Exported s { s with files := (addFiles calls.written 0 s.enabledRows ∅).2 } := by
  have hwritten : ∀ k < s.enabledRows.length, calls.written (0 + k) = .whole := by
    intro k hk
    rw [Nat.zero_add]
    exact hwhole k hk
  have hlookup (i : Nat) (row : KeyRow) (hrow : s.enabledRows[i]? = some row) :
      (addFiles calls.written 0 s.enabledRows ∅).2.lookup (authFile i) =
        some (buildV3ClientAuthFile row.domain row.hash) := by
    have hfile : (addFiles calls.written 0 s.enabledRows ∅).2.lookup (authFile (0 + i)) = _ :=
      lookup_addFiles hwritten hrow
    rwa [Nat.zero_add] at hfile
  constructor
  · intro name
    rw [← AList.lookup_isSome]
    constructor
    · intro hname
      by_contra hnot
      have hother : ∀ k < s.enabledRows.length, name ≠ authFile (0 + k) := by
        intro k hk hsame
        rw [Nat.zero_add] at hsame
        exact hnot ⟨k, hk, hsame⟩
      rw [lookup_addFiles_of_ne hother, AList.lookup_empty] at hname
      cases hname
    · intro h
      obtain ⟨i, hi, rfl⟩ := h
      rw [hlookup i _ (List.getElem?_eq_getElem hi)]
      rfl
  · intro i row hrow
    refine ⟨_, hlookup i row hrow, fun device => ?_⟩
    have hmem : row ∈ s.rows := List.mem_of_mem_filter (List.mem_of_getElem? hrow)
    exact onActivityResult_eq_some_iff.mpr
      ⟨List.suffix_append .., restore_buildV3ClientAuthFile_iff.mpr (hs row hmem)⟩

theorem addClientAuthToTorrc_of_cursor (hcursor : calls.noCursor = false) :
    addClientAuthToTorrc calls v3AuthBasePath s =
      (if AllWritten calls s ∧ s.enabledRows ≠ [] then "ClientOnionAuthDir ".toList ++ v3AuthBasePath ++ ['\n']
        else [], { s with files := (addFiles calls.written 0 s.enabledRows ∅).2 }) := by
  have hcount : 0 < (addFiles calls.written 0 s.enabledRows ∅).1.getD 0 ↔
      AllWritten calls s ∧ s.enabledRows ≠ [] := by
    simp only [addFiles_fst, Nat.zero_add, AllWritten]
    split
    case isTrue hwhole => rw [Option.getD_some, List.length_pos_iff, and_iff_right hwhole]
    case isFalse hthrown => exact iff_of_false (Nat.lt_irrefl 0) fun h => hthrown h.1
  rw [addClientAuthToTorrc, hcursor, if_neg Bool.false_ne_true]
  simp only [hcount]

-- Whenever tor starts, its configuration names the directory exactly if a key is enabled and every file has been
-- written, and then the files are those of the keys that are enabled.
theorem startTor_exports {events : List Event} (hrun : run ClientAuth.step noKeys events = some s)
    (hstart : addClientAuthToTorrc calls v3AuthBasePath s = (torrc, t)) :
    (torrc ≠ [] ↔ calls.noCursor = false ∧ AllWritten calls s ∧ s.enabledRows ≠ []) ∧
      (torrc ≠ [] → torrc = "ClientOnionAuthDir ".toList ++ v3AuthBasePath ++ ['\n'] ∧ Exported s t) := by
  cases hcursor : calls.noCursor with
  | true =>
      rw [addClientAuthToTorrc, hcursor, if_pos rfl] at hstart
      obtain rfl := congrArg Prod.fst hstart
      exact ⟨by simp, fun h => absurd rfl h⟩
  | false =>
      rw [addClientAuthToTorrc_of_cursor hcursor] at hstart
      obtain ⟨rfl, rfl⟩ := Prod.mk.inj hstart
      split
      case isTrue hgiven =>
        exact ⟨iff_of_true (by simp) ⟨rfl, hgiven⟩, fun _ =>
          ⟨rfl, exported_addFiles (allReadable_of_run hrun) hgiven.1⟩⟩
      case isFalse hnot => exact ⟨iff_of_false (by simp) fun h => hnot h.2, fun h => absurd rfl h⟩

-- A key that is entered and switched off, and a key that is restored.
def twoKeys : List Event :=
  [.create (List.replicate 56 'a' ++ ".onion".toList) (List.replicate 52 'A'),
    .restore "b.auth_private".toList "b:descriptor:x25519:c".toList, .check 1 false]

def allWritten : Calls := { noCursor := false, written := fun _ => .whole }

theorem startTor_exports_twoKeys : ∃ s t torrc, run ClientAuth.step noKeys twoKeys = some s ∧
    addClientAuthToTorrc allWritten "/keys".toList s = (torrc, t) ∧ s.enabledRows.length = 1 ∧ Exported s t := by
  have hrun : run ClientAuth.step noKeys twoKeys = some _ := rfl
  refine ⟨_, _, _, hrun, rfl, rfl, ?_⟩
  have hexports := startTor_exports hrun (Prod.mk.eta (p := addClientAuthToTorrc allWritten "/keys".toList _)).symm
  exact (hexports.2 (hexports.1.mpr ⟨rfl, fun _ _ => rfl, List.cons_ne_nil _ _⟩)).2

end

end ToInet.V3onionservice.ClientAuth
