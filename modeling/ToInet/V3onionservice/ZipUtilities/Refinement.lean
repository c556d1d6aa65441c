import ToInet.V3onionservice.ZipUtilities
import ToInet.V3onionservice.V3BackupUtils.Theorems

-- The named directories of V3BackupUtils are what a file system has in the base path.
namespace ToInet.V3onionservice.ZipUtilities

open ToInet.Lib
open FileTree (normalize)

variable {β : Type}

def Entry.node : Entry β → FileNode β
  | .file content => .file content
  | .directory _ => .directory

structure ShowsEntry (t : FileTree β) (place : Path) (entry : Option (Entry β)) : Prop where
  node : t.nodes.lookup place = entry.map Entry.node
  children : ∀ children, entry = some (.directory children) → ∀ name, name ∈ children ↔ name ∈ t.children place

def ShowsDirectory (t : FileTree β) (place : Path) : Option (Directory β) → Prop
  | none => t.nodes.lookup place = none
  | some dir => t.isDir place = true ∧ ∀ name, ShowsEntry t (place ++ [name]) (dir.lookup name)

structure Shows (t : FileTree β) (base : Path) (s : Onions β) : Prop where
  isDir : t.isDir base = true
  dirs : ∀ name, ShowsDirectory t (base ++ [name]) (s.dirs.lookup name)

-- A tree that differs from another in a directory only.
structure Inside (t next : FileTree β) (path : Path) (dir : Option (Directory β)) : Prop where
  shows : ShowsDirectory next path dir
  apart : ∀ place, ¬path <+: place → next.nodes.lookup place = t.nodes.lookup place

variable {t next : FileTree β} {path place : Path} {name : String} {entry : Option (Entry β)}
  {dir : Directory β}

theorem showsEntry_congr (hat : next.nodes.lookup place = t.nodes.lookup place)
    (hbelow : ∀ name, next.nodes.lookup (place ++ [name]) = t.nodes.lookup (place ++ [name]))
    (h : ShowsEntry t place entry) : ShowsEntry next place entry := by
  refine ⟨hat.trans h.node, fun children hentry name => ?_⟩
  rw [h.children children hentry, FileTree.mem_children, FileTree.mem_children, ← AList.lookup_isSome,
    ← AList.lookup_isSome, hbelow]

theorem showsDirectory_congr {dir : Option (Directory β)}
    (hsame : ∀ more, next.nodes.lookup (path ++ more) = t.nodes.lookup (path ++ more))
    (h : ShowsDirectory t path dir) : ShowsDirectory next path dir := by
  have hhere := hsame []
  rw [List.append_nil] at hhere
  cases dir with
  | none => exact hhere.trans h
  | some dir =>
      obtain ⟨hdir, hentries⟩ := h
      refine ⟨?_, fun name => showsEntry_congr (hsame [name]) (fun last => ?_) (hentries name)⟩
      · rwa [FileTree.isDir, hhere, ← FileTree.isDir]
      · rw [List.append_assoc]
        exact hsame _

-- What comes by one name leaves the rest of the directory.
theorem showsDirectory_of_name (name : String) {dir after : Directory β} (hshows : ShowsDirectory t path (some dir))
    (hother : ∀ place, place ≠ path ++ [name] → next.nodes.lookup place = t.nodes.lookup place)
    (hlookup : ∀ other, other ≠ name → after.lookup other = dir.lookup other)
    (hname : ShowsEntry next (path ++ [name]) (after.lookup name)) : ShowsDirectory next path (some after) := by
  obtain ⟨hdir, hentries⟩ := hshows
  refine ⟨?_, fun other => ?_⟩
  · rwa [FileTree.isDir, hother path (by simp), ← FileTree.isDir]
  · by_cases hsame : other = name
    · rwa [hsame]
    · rw [hlookup other hsame]
      refine showsEntry_congr (hother _ (by simpa using hsame)) (fun last => hother _ fun hlong => ?_) (hentries other)
      have hlength := congrArg List.length hlong
      simp at hlength

theorem deletable_of_shows {entry : Entry β} (h : ShowsEntry t place (some entry)) :
    t.deletable place = entry.deletable := by
  obtain ⟨hnode, hchildren⟩ := h
  unfold FileTree.deletable
  rw [hnode]
  cases entry with
  | file content => rfl
  | directory children =>
      rw [Option.map_some, Entry.node, Entry.deletable, Bool.eq_iff_iff, decide_eq_true_iff, List.isEmpty_iff,
        List.eq_nil_iff_forall_not_mem, Finset.eq_empty_iff_forall_notMem]
      exact forall_congr' fun name => (hchildren children rfl name).symm.not

theorem isDir_of_shows (h : ShowsEntry t place entry) :
    t.isDir place = true ↔ ∃ children, entry = some (.directory children) := by
  rw [FileTree.isDir_iff, h.node, Option.map_eq_some_iff]
  constructor
  · rintro ⟨value, rfl, hvalue⟩
    cases value with
    | file content => cases hvalue
    | directory children => exact ⟨children, rfl⟩
  · rintro ⟨children, rfl⟩
    exact ⟨_, rfl, rfl⟩

theorem mem_children_of_shows (h : ShowsDirectory t path (some dir)) : name ∈ t.children path ↔ name ∈ dir.keys := by
  rw [FileTree.mem_children, ← AList.mem_keys, ← AList.lookup_isSome, ← AList.lookup_isSome, (h.2 name).node,
    Option.isSome_map]

theorem proper_of_config (h : name ∈ ONION_SERVICE_CONFIG_FILES) : Proper name := by
  revert name
  decide

theorem write_of_not_directory (h : ¬∃ children, dir.lookup name = some (.directory children)) (content : β) :
    dir.write name content = some (dir.insert name (.file content)) := by
  unfold Directory.write
  split
  · rename_i children hchildren
    exact absurd ⟨children, hchildren⟩ h
  · rfl

section

variable (hproper : ∀ other ∈ path, Proper other)
include hproper

-- A write goes the same way for both, and so does an exception.
theorem write_shows (hdir : Inside t next path (some dir)) (hname : Proper name) (content : β) :
    Option.Rel (fun next dir => Inside t next path (some dir)) (next.write path name content)
      (dir.write name content) := by
  obtain ⟨⟨hisDir, hentries⟩, hapart⟩ := hdir
  have hwritable : next.Writable path name ↔ ¬∃ children, dir.lookup name = some (.directory children) := by
    rw [FileTree.Writable, FileTree.enters_of_proper hproper, FileTree.normalize_eq_self hproper,
      and_iff_right hisDir, and_iff_right hname, ← isDir_of_shows (hentries name), Bool.not_eq_true]
  by_cases hfree : ∃ children, dir.lookup name = some (.directory children)
  · rw [FileTree.write_of_not_writable (mt hwritable.mp (not_not_intro hfree))]
    obtain ⟨children, hchildren⟩ := hfree
    rw [Directory.write, hchildren]
    exact .none
  · obtain ⟨after, hwrite, _⟩ := FileTree.exists_write (hwritable.mpr hfree) content
    have hlookup := FileTree.lookup_write hwrite
    rw [FileTree.normalize_eq_self hproper] at hlookup
    rw [hwrite, write_of_not_directory hfree]
    refine .some ⟨showsDirectory_of_name name ⟨hisDir, hentries⟩ (fun place hplace => ?_) (fun other hother => ?_) ?_,
      fun place hplace => ?_⟩
    · rw [hlookup, if_neg hplace]
    · exact AList.lookup_insert_ne hother
    · rw [AList.lookup_insert]
      exact ⟨by rw [hlookup, if_pos rfl]; rfl, nofun⟩
    · rw [hlookup, if_neg, hapart place hplace]
      rintro rfl
      exact hplace (List.prefix_append path [name])

theorem delete_shows (hdir : Inside t next path (some dir)) (name : String) :
    Inside t (next.delete path name) path (some (dir.delete name)) := by
  obtain ⟨⟨hisDir, hentries⟩, hapart⟩ := hdir
  have hlookup := FileTree.lookup_delete next path name
  rw [FileTree.normalize_eq_self hproper, FileTree.enters_of_proper hproper, hisDir] at hlookup
  refine ⟨showsDirectory_of_name name ⟨hisDir, hentries⟩ (fun place hplace => ?_) (fun other hother => ?_) ?_,
    fun place hplace => ?_⟩
  · rw [hlookup, if_neg fun hall => hplace hall.2.2]
  · rw [lookup_delete, if_neg hother]
  · have hentry := hentries name
    rw [lookup_delete, if_pos rfl]
    cases hthere : dir.lookup name with
    | none =>
        rw [hthere] at hentry
        refine ⟨?_, nofun⟩
        rw [Option.filter_none, hlookup, hentry.node, Option.map_none, ite_self]
    | some entry =>
        rw [hthere] at hentry
        rw [deletable_of_shows hentry] at hlookup
        cases hdeletable : entry.deletable with
        | true =>
            rw [Option.filter_some_neg (by simp [hdeletable])]
            exact ⟨by rw [hlookup, if_pos ⟨rfl, hdeletable, rfl⟩]; rfl, nofun⟩
        | false =>
            have hkept (place : Path) : (next.delete path name).nodes.lookup place = next.nodes.lookup place := by
              rw [hlookup, if_neg fun hall => Bool.false_ne_true (hdeletable.symm.trans hall.2.1)]
            rw [Option.filter_some_pos (by simp [hdeletable])]
            exact showsEntry_congr (hkept _) (fun last => hkept _) hentry
  · rw [hlookup, if_neg, hapart place hplace]
    rintro ⟨_, _, rfl⟩
    exact hplace (List.prefix_append path [name])

theorem foldl_delete_shows (names : List String) (hdir : Inside t next path (some dir)) :
    Inside t (names.foldl (fun t name => t.delete path name) next) path (some (names.foldl Directory.delete dir)) := by
  induction names generalizing next dir with
  | nil => exact hdir
  | cons name names ih => exact ih (delete_shows hproper hdir name)

-- The order of the names makes no difference where all are come to.
theorem deleteFiles_shows (listing : Listing) (hdir : Inside t next path (some dir)) :
    Inside t ((listing.list (next.children path)).foldl (fun t name => t.delete path name) next) path
      (some dir.deleteFiles) := by
  obtain ⟨⟨hisDir, hentries⟩, hapart⟩ := foldl_delete_shows hproper (listing.list (next.children path)) hdir
  refine ⟨⟨hisDir, fun name => ?_⟩, hapart⟩
  have hsame : ((listing.list (next.children path)).foldl Directory.delete dir).lookup name =
      dir.deleteFiles.lookup name := by
    rw [lookup_foldl_delete, lookup_deleteFiles]
    split
    · rfl
    · rename_i hunlisted
      rw [listing.mem_list, mem_children_of_shows hdir.shows, ← AList.mem_keys, ← AList.lookup_eq_none] at hunlisted
      rw [hunlisted, Option.filter_none]
  rw [← hsame]
  exact hentries name

theorem deletePath_shows (hpath : path ≠ []) (hdir : Inside t next path (some dir)) :
    Inside t (next.deletePath path) path (if dir.keys = [] then none else some dir) := by
  obtain ⟨front, last, rfl⟩ := (List.eq_nil_or_concat' path).resolve_left hpath
  obtain ⟨⟨hisDir, hentries⟩, hapart⟩ := hdir
  have hfront : ∀ other ∈ front, Proper other := fun other hother => hproper other (List.mem_append_left _ hother)
  have hempty : next.deletable (front ++ [last]) = true ↔ dir.keys = [] := by
    rw [FileTree.deletable_of_isDir hisDir, Finset.eq_empty_iff_forall_notMem, List.eq_nil_iff_forall_not_mem]
    exact forall_congr' fun name => (mem_children_of_shows ⟨hisDir, hentries⟩).not
  have hlookup := FileTree.lookup_delete next front last
  rw [FileTree.normalize_eq_self hfront, FileTree.enters_of_proper hfront, FileTree.isDir_of_append hisDir] at hlookup
  rw [FileTree.deletePath, List.getLast?_concat, List.dropLast_concat]
  refine ⟨?_, fun place hplace => ?_⟩
  · by_cases hnone : dir.keys = []
    · rw [if_pos hnone, ShowsDirectory, hlookup, if_pos ⟨rfl, hempty.mpr hnone, rfl⟩]
    · rw [if_neg hnone]
      refine showsDirectory_congr (fun more => ?_) ⟨hisDir, hentries⟩
      rw [hlookup, if_neg fun hall => hnone (hempty.mp hall.2.1)]
  · rw [hlookup, if_neg, hapart place hplace]
    rintro ⟨_, _, rfl⟩
    exact hplace List.prefix_rfl

variable (listing : Listing)

theorem cleanUp_shows (hpath : path ≠ []) (hdir : Inside t next path (some dir)) :
    Inside t (cleanUp listing next path) path dir.deleteAll := by
  have henters : next.enters path = true := by
    rw [FileTree.enters_of_proper hproper]
    exact hdir.shows.1
  rw [cleanUp, FileTree.listFiles, if_pos henters, FileTree.normalize_eq_self hproper]
  exact deletePath_shows hproper hpath (deleteFiles_shows hproper listing hdir)

theorem extractFromZipInputStream_shows (hpath : path ≠ []) (broken : Bool) (entries : List (String × β))
    (hdir : Inside t next path (some dir)) :
    (extractFromZipInputStream listing path broken next entries).1 =
        (V3onionservice.extractFromZipInputStream dir broken entries).1 ∧
      Inside t (extractFromZipInputStream listing path broken next entries).2 path
        (V3onionservice.extractFromZipInputStream dir broken entries).2 := by
  induction entries generalizing next dir with
  | nil => exact ⟨rfl, hdir⟩
  | cons entry entries ih =>
      obtain ⟨filename, content⟩ := entry
      rw [extractFromZipInputStream, V3onionservice.extractFromZipInputStream]
      by_cases hallowed : filename ∈ ONION_SERVICE_CONFIG_FILES
      · rw [if_pos hallowed, if_pos hallowed]
        have hwrite := write_shows hproper hdir (proper_of_config hallowed) content
        revert hwrite
        cases next.write path filename content <;> cases dir.write filename content
        · exact fun _ => ⟨rfl, hdir⟩
        · rintro ⟨⟩
        · rintro ⟨⟩
        · rintro (hwrite | _)
          exact ih hwrite
      · rw [if_neg hallowed, if_neg hallowed]
        exact ⟨rfl, cleanUp_shows hproper listing hpath hdir⟩

end

variable {base : Path} {s : Onions β}

-- A directory that is not there is made, and has nothing in it.
theorem mkdirs_shows (hproper : ∀ other ∈ base ++ [name], Proper other) (h : Shows t base s) :
    Inside t (t.mkdirs (base ++ [name])) (base ++ [name]) (some (s.mkdirs name)) := by
  have hdir := h.dirs name
  rw [FileTree.mkdirs_append hproper h.isDir, Onions.mkdirs]
  cases hthere : s.dirs.lookup name with
  | some dir =>
      rw [hthere] at hdir
      have hmem : base ++ [name] ∈ t.nodes := by
        rw [← AList.lookup_isSome, FileTree.isDir_iff.mp hdir.1]
        rfl
      rw [FileTree.makeDir_of_mem hmem]
      exact ⟨hdir, fun _ _ => rfl⟩
  | none =>
      rw [hthere] at hdir
      have hfree : base ++ [name] ∉ t.nodes := AList.lookup_eq_none.mp hdir
      have hlookup (place : Path) : (t.makeDir base name).nodes.lookup place =
          if place = base ++ [name] then some .directory else t.nodes.lookup place := by
        simp only [FileTree.lookup_makeDir, h.isDir, hproper name (by simp), hfree, not_false_eq_true, true_and]
      refine ⟨⟨?_, fun last => ⟨?_, fun names hlast => ?_⟩⟩, fun place hplace => ?_⟩
      · rw [FileTree.isDir_iff, hlookup, if_pos rfl]
      · rw [hlookup, if_neg (by simp)]
        refine AList.lookup_eq_none.mpr fun hmem => ?_
        cases (t.parent _ last hmem).1.symm.trans hdir
      · cases hlast
      · rw [hlookup, if_neg]
        rintro rfl
        exact hplace List.prefix_rfl

theorem setDir_shows {dir : Option (Directory β)} (h : Shows t base s) (hdir : Inside t next (base ++ [name]) dir) :
    Shows next base (s.setDir name dir) := by
  refine ⟨?_, fun other => ?_⟩
  · have hbase : ¬base ++ [name] <+: base := by
      intro hprefix
      have hlength := hprefix.length_le
      rw [List.length_append, List.length_singleton] at hlength
      omega
    rw [FileTree.isDir, hdir.apart base hbase, ← FileTree.isDir]
    exact h.isDir
  · rw [lookup_setDir]
    split
    · rename_i hsame
      rw [hsame]
      exact hdir.shows
    · rename_i hother
      refine showsDirectory_congr (fun more => hdir.apart _ fun hprefix => hother ?_) (h.dirs other)
      rw [List.append_assoc, List.prefix_append_right_inj, List.singleton_append, List.cons_prefix_cons] at hprefix
      exact hprefix.1.symm

-- A directory with nothing in it has no services.
theorem shows_nothing (hdir : t.isDir base = true) (hempty : t.children base = ∅) (rows : List Row) (nextId : Nat) :
    Shows t base { rows, nextId, dirs := ∅ } := by
  refine ⟨hdir, fun name => AList.lookup_eq_none.mpr fun hmem => ?_⟩
  rw [← FileTree.mem_children, hempty] at hmem
  exact Finset.notMem_empty name hmem

example : Shows (FileTree.bare.mkdirs ["onion_services"] : FileTree Nat) ["onion_services"] ⟨[], 0, ∅⟩ :=
  shows_nothing (by decide) (by decide) [] 0

theorem components_append (basePath : String) {name : String} (hname : name ≠ "") (hslash : '/' ∉ name.toList) :
    components (basePath ++ "/" ++ name) = components basePath ++ [name] := by
  have htext : (basePath ++ "/" ++ name).toList = basePath.toList ++ '/' :: name.toList := by simp
  rw [components, htext, List.splitOn_append_cons_self, List.splitOn_eq_singleton hslash, List.map_append,
    List.filter_append, components, List.map_singleton, String.ofList_toList, List.filter_singleton,
    decide_eq_true hname, cond_true]

-- Both models of unzip return the same and leave the same files, where the base path is a directory
-- that its path leads to straight.
theorem unzip_shows (listing : Listing) {basePath : String} (hproper : ∀ other ∈ components basePath, Proper other)
    (h : Shows t (components basePath) s) (backup : BackupName) (zip : Zip β) :
    let (returnVal, after) := unzip listing t (basePath ++ "/" ++ backup.v3Dir) (some zip)
    let (returned, left) := V3onionservice.unzip s backup.v3Dir zip
    returnVal = returned ∧ Shows after (components basePath) left := by
  obtain ⟨hname, hslash⟩ := backup.named
  have hall : ∀ other ∈ components basePath ++ [backup.v3Dir], Proper other := by
    intro other hother
    obtain hbase | hlast := List.mem_append.mp hother
    · exact hproper other hbase
    · rw [List.mem_singleton.mp hlast]
      exact hname
  obtain ⟨hreturned, hdir⟩ := extractFromZipInputStream_shows hall listing (by simp) zip.broken zip.entries
    (mkdirs_shows hall h)
  rw [unzip, V3onionservice.unzip, components_append basePath (by rintro hnone; simp [hnone] at hname) hslash]
  exact ⟨hreturned, setDir_shows h hdir⟩

end ToInet.V3onionservice.ZipUtilities
