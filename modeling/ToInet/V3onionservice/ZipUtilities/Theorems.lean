import ToInet.V3onionservice.ZipUtilities
import ToInet.V3onionservice.V3BackupUtils.Theorems
import Mathlib.Data.Finset.Lattice.Lemmas
import Mathlib.Data.List.TakeWhile

-- Whether unzip leaves the files alone when it returns false, and where it writes.
namespace ToInet.V3onionservice.ZipUtilities

open ToInet.Lib
open FileTree (normalize)

variable {β : Type}

-- The tree after entries have been written to a directory.
def overwritten (t : FileTree β) (outputDir : Path) (entries : List (String × β)) : FileTree β :=
  entries.foldl (fun t entry => (t.write outputDir entry.1 entry.2).getD t) t

-- A configuration file that can be written.
def isWritten (t : FileTree β) (outputDir : Path) (entry : String × β) : Bool :=
  entry.1 ∈ ONION_SERVICE_CONFIG_FILES ∧ t.Writable outputDir entry.1

variable {t next : FileTree β} {outputDir place : Path} {entries : List (String × β)} {entry : String × β}

theorem isWritten_iff :
    isWritten t outputDir entry = true ↔ entry.1 ∈ ONION_SERVICE_CONFIG_FILES ∧ t.Writable outputDir entry.1 :=
  decide_eq_true_iff

theorem isWritten_congr (h : ∀ dir, next.isDir dir = t.isDir dir) :
    isWritten next outputDir = isWritten t outputDir := by
  funext entry
  rw [Bool.eq_iff_iff, isWritten_iff, isWritten_iff, FileTree.Writable, FileTree.Writable, h, FileTree.enters_congr h]

-- The directories stay, the last entry by a name is the file by this name, and no other file changes.
structure Over (t next : FileTree β) (outputDir : Path) (entries : List (String × β)) : Prop where
  isDir : ∀ dir, next.isDir dir = t.isDir dir
  file : ∀ name, next.file (normalize outputDir ++ [name]) =
    (written entries name).or (t.file (normalize outputDir ++ [name]))
  other : ∀ place, (∀ name, place ≠ normalize outputDir ++ [name]) → next.file place = t.file place
  children : ∀ dir last, last ∈ next.children dir ↔
    (dir = normalize outputDir ∧ last ∈ entries.map Prod.fst) ∨ last ∈ t.children dir

theorem Over.refl (t : FileTree β) (outputDir : Path) : Over t t outputDir [] :=
  ⟨fun _ => rfl, fun _ => rfl, fun _ _ => rfl, by simp⟩

theorem overwritten_spec (h : ∀ entry ∈ entries, isWritten t outputDir entry = true) :
    Over t (overwritten t outputDir entries) outputDir entries := by
  induction entries generalizing t with
  | nil => exact Over.refl t outputDir
  | cons entry entries ih =>
      obtain ⟨_, hwritable⟩ := isWritten_iff.mp (h entry List.mem_cons_self)
      obtain ⟨next, hwrite, hdir, hfile, hchildren⟩ := FileTree.exists_write hwritable entry.2
      have hrest := @ih next fun other hother => by
        rw [isWritten_congr hdir]
        exact h other (List.mem_cons_of_mem _ hother)
      have hstep : overwritten t outputDir (entry :: entries) = overwritten next outputDir entries := by
        rw [overwritten, List.foldl_cons, hwrite, Option.getD_some, overwritten]
      rw [hstep]
      refine ⟨fun dir => (hrest.isDir dir).trans (hdir dir), fun name => ?_, fun place hplace => ?_, fun dir last => ?_⟩
      · rw [hrest.file, hfile, written_cons, Option.or_assoc]
        by_cases hname : name = entry.1
        · simp [hname]
        · simp [hname]
      · rw [hrest.other place hplace, hfile, if_neg (hplace entry.1)]
      · rw [hrest.children, hchildren, List.map_cons, List.mem_cons]
        constructor
        · rintro (⟨hdir, hlast⟩ | hsame | hlast)
          · exact .inl ⟨hdir, .inr hlast⟩
          · obtain ⟨hdir, hlast⟩ := List.append_inj' hsame rfl
            exact .inl ⟨hdir, .inl (List.singleton_inj.mp hlast)⟩
          · exact .inr hlast
        · rintro (⟨rfl, rfl | hlast⟩ | hlast)
          · exact .inr (.inl rfl)
          · exact .inl ⟨rfl, hlast⟩
          · exact .inr (.inr hlast)

variable (listing : Listing)

-- The entries are written up to one that stops the extraction, if there is one.
theorem extractFromZipInputStream_eq (broken : Bool) :
    extractFromZipInputStream listing outputDir broken t entries =
      match entries.dropWhile (isWritten t outputDir) with
      | [] => (!broken, overwritten t outputDir (entries.takeWhile (isWritten t outputDir)))
      | (filename, _) :: _ =>
          (false, if filename ∈ ONION_SERVICE_CONFIG_FILES then
            overwritten t outputDir (entries.takeWhile (isWritten t outputDir))
            else cleanUp listing (overwritten t outputDir (entries.takeWhile (isWritten t outputDir))) outputDir) := by
  induction entries generalizing t with
  | nil => rfl
  | cons entry entries ih =>
      obtain ⟨filename, content⟩ := entry
      rw [extractFromZipInputStream]
      by_cases hallowed : filename ∈ ONION_SERVICE_CONFIG_FILES
      · rw [if_pos hallowed]
        by_cases hwritable : t.Writable outputDir filename
        · obtain ⟨next, hwrite, hdir, _⟩ := FileTree.exists_write hwritable content
          have hwritten : isWritten t outputDir (filename, content) = true := isWritten_iff.mpr ⟨hallowed, hwritable⟩
          rw [List.dropWhile_cons_of_pos hwritten, List.takeWhile_cons_of_pos hwritten, hwrite]
          dsimp only
          rw [ih, isWritten_congr hdir]
          simp only [overwritten, List.foldl_cons, hwrite, Option.getD_some]
        · have hstopped : ¬isWritten t outputDir (filename, content) = true := fun h => hwritable (isWritten_iff.mp h).2
          rw [List.dropWhile_cons_of_neg hstopped, List.takeWhile_cons_of_neg hstopped,
            FileTree.write_of_not_writable hwritable]
          dsimp only
          rw [if_pos hallowed]
          rfl
      · have hstopped : ¬isWritten t outputDir (filename, content) = true := fun h => hallowed (isWritten_iff.mp h).1
        rw [List.dropWhile_cons_of_neg hstopped, List.takeWhile_cons_of_neg hstopped, if_neg hallowed]
        dsimp only
        rw [if_neg hallowed]
        rfl

-- The names that the clean-up comes to, among those in the directory and those that were written.
def reached (t : FileTree β) (outputDir : Path) (entries : List (String × β)) : List String :=
  (listing.list (t.children (normalize outputDir) ∪ (entries.map Prod.fst).toFinset)).takeWhile
    fun name => !t.leads outputDir name

theorem file_cleanUp (hover : Over t next outputDir entries) (henters : t.enters outputDir = true) (place : Path) :
    (cleanUp listing next outputDir).file place =
      if ∃ name ∈ reached listing t outputDir entries, place = normalize outputDir ++ [name] then none
      else next.file place := by
  have hstill : next.enters outputDir = true := (FileTree.enters_congr hover.isDir outputDir).trans henters
  have hchildren : next.children (normalize outputDir) =
      t.children (normalize outputDir) ∪ (entries.map Prod.fst).toFinset := by
    ext name
    rw [hover.children, Finset.mem_union, List.mem_toFinset, and_iff_right rfl, or_comm]
  have hleads (name : String) : next.leads outputDir name = t.leads outputDir name := by
    have hbelow : next.children (normalize outputDir ++ [name]) = t.children (normalize outputDir ++ [name]) := by
      ext last
      rw [hover.children, or_iff_right]
      rintro ⟨hsame, _⟩
      exact absurd hsame (by simp)
    rw [FileTree.leads, FileTree.leads, hover.isDir, hbelow]
  have hfold := fun place =>
    FileTree.file_foldl_delete (listing.list (next.children (normalize outputDir))) hstill place
  simp only [hleads, hchildren] at hfold
  have hnone : next.file (normalize outputDir) = none :=
    FileTree.file_eq_none_of_isDir (FileTree.isDir_normalize hstill (by simp))
  unfold cleanUp FileTree.listFiles
  rw [if_pos hstill, hchildren]
  dsimp only
  rw [FileTree.file_deletePath_of_none, hfold]
  · rfl
  · rw [hfold, hnone, ite_self]

theorem file_cleanUp_of_not_enters (h : t.enters outputDir = false) (place : Path) :
    (cleanUp listing t outputDir).file place =
      if t.enters outputDir.dropLast = true ∧
          ∃ name, outputDir.getLast? = some name ∧ place = normalize outputDir.dropLast ++ [name] then none
      else t.file place := by
  unfold cleanUp FileTree.listFiles
  rw [h, if_neg Bool.false_ne_true, FileTree.file_deletePath]

-- After a false each file is what it was, and a file that is new or has changed is one of the four in
-- the output directory.
def Keeps (t : FileTree β) (outputPath : String) (zip : Option (Zip β)) : Prop :=
  let (returnVal, after) := unzip listing t outputPath zip
  (returnVal = false → ∀ place, after.file place = t.file place) ∧
    ∀ place content, after.file place = some content → t.file place = some content ∨
      ∃ filename ∈ ONION_SERVICE_CONFIG_FILES, place = normalize (components outputPath) ++ [filename]

-- Each file that is written has its content already.
def Same (t : FileTree β) (outputDir : Path) (entries : List (String × β)) : Prop :=
  ∀ name content, written entries name = some content → t.file (normalize outputDir ++ [name]) = some content

-- The clean-up comes to no file that was there before, and leaves none that is written with another
-- content.
def Cleaned (t : FileTree β) (outputDir : Path) (entries : List (String × β)) : Prop :=
  ∀ name, if name ∈ reached listing t outputDir entries then t.file (normalize outputDir ++ [name]) = none
    else ∀ content, written entries name = some content → t.file (normalize outputDir ++ [name]) = some content

-- The output path is none of a file.
def NoFile (t : FileTree β) (outputDir : Path) : Prop :=
  ∀ name, outputDir.getLast? = some name → t.enters outputDir.dropLast = true →
    t.file (normalize outputDir.dropLast ++ [name]) = none

-- What stops the extraction finds nothing changed: an exception behind entries that were there
-- already, or a foreign entry and no file to delete.
def Unharming (t : FileTree β) (outputPath : String) : Option (Zip β) → Prop
  | none => True
  | some zip =>
      let outputDir := components outputPath
      let made := t.mkdirs outputDir
      let entries := zip.entries.takeWhile (isWritten made outputDir)
      match zip.entries.dropWhile (isWritten made outputDir) with
      | [] => zip.broken = true → Same made outputDir entries
      | (filename, _) :: _ =>
          if filename ∈ ONION_SERVICE_CONFIG_FILES then Same made outputDir entries
          else if made.enters outputDir then Cleaned listing made outputDir entries
          else NoFile made outputDir

theorem or_eq_right_iff (first second : Option β) :
    first.or second = second ↔ ∀ content, first = some content → second = some content := by
  cases first with
  | none => simp
  | some content => simp [eq_comm]

-- Two trees that only differ in the output directory are compared there.
theorem forall_file_iff (h : ∀ place, (∀ name, place ≠ normalize outputDir ++ [name]) →
    next.file place = t.file place) :
    (∀ place, next.file place = t.file place) ↔
      ∀ name, next.file (normalize outputDir ++ [name]) = t.file (normalize outputDir ++ [name]) := by
  constructor
  · intro hall name
    exact hall _
  · intro hnames place
    by_cases hplace : ∃ name, place = normalize outputDir ++ [name]
    · obtain ⟨name, rfl⟩ := hplace
      exact hnames name
    · exact h place fun name hname => hplace ⟨name, hname⟩

theorem over_keeps_iff (hover : Over t next outputDir entries) :
    (∀ place, next.file place = t.file place) ↔ Same t outputDir entries := by
  rw [forall_file_iff hover.other]
  refine forall_congr' fun name => ?_
  rw [hover.file, or_eq_right_iff]

theorem cleanUp_keeps_iff (hover : Over t next outputDir entries) (henters : t.enters outputDir = true) :
    (∀ place, (cleanUp listing next outputDir).file place = t.file place) ↔ Cleaned listing t outputDir entries := by
  rw [@forall_file_iff _ _ _ outputDir]
  · refine forall_congr' fun name => ?_
    rw [file_cleanUp listing hover henters]
    have hname : (∃ other ∈ reached listing t outputDir entries,
        normalize outputDir ++ [name] = normalize outputDir ++ [other]) ↔
          name ∈ reached listing t outputDir entries := by
      simp
    simp only [hname]
    split
    · exact eq_comm
    · rw [hover.file, or_eq_right_iff]
  · intro place hplace
    rw [file_cleanUp listing hover henters, if_neg, hover.other place hplace]
    rintro ⟨name, _, hname⟩
    exact hplace name hname

theorem cleanUp_keeps_iff_noFile (h : t.enters outputDir = false) :
    (∀ place, (cleanUp listing t outputDir).file place = t.file place) ↔ NoFile t outputDir := by
  constructor
  · intro hall name hname henters
    rw [← hall, file_cleanUp_of_not_enters listing h, if_pos ⟨henters, name, hname, rfl⟩]
  · intro hnone place
    rw [file_cleanUp_of_not_enters listing h]
    split
    · rename_i hdeleted
      obtain ⟨henters, name, hname, rfl⟩ := hdeleted
      exact (hnone name hname henters).symm
    · rfl

theorem written_mem {name : String} {content : β} (h : written entries name = some content) :
    (name, content) ∈ entries := by
  induction entries with
  | nil => cases h
  | cons entry entries ih =>
      rw [written_cons] at h
      obtain hlater | ⟨_, hhere⟩ := Option.or_eq_some_iff.mp h
      · exact List.mem_cons_of_mem _ (ih hlater)
      · split at hhere
        · rename_i hname
          rw [hname, ← Option.some.inj hhere]
          exact List.mem_cons_self
        · cases hhere

-- Nothing but the clean-up comes behind the writes, and it makes no file.
theorem over_writes (hover : Over t next outputDir entries)
    (hentries : ∀ entry ∈ entries, isWritten t outputDir entry = true) {content : β}
    (h : next.file place = some content) :
    t.file place = some content ∨
      ∃ filename ∈ ONION_SERVICE_CONFIG_FILES, place = normalize outputDir ++ [filename] := by
  by_cases hplace : ∃ name, place = normalize outputDir ++ [name]
  · obtain ⟨name, rfl⟩ := hplace
    rw [hover.file] at h
    obtain hwritten | ⟨_, hbefore⟩ := Option.or_eq_some_iff.mp h
    · obtain ⟨hallowed, _⟩ := isWritten_iff.mp (hentries _ (written_mem hwritten))
      exact .inr ⟨name, hallowed, rfl⟩
    · exact .inl hbefore
  · rw [hover.other place fun name hname => hplace ⟨name, hname⟩] at h
    exact .inl h

theorem file_cleanUp_some {content : β} (h : (cleanUp listing t outputDir).file place = some content) :
    t.file place = some content := by
  cases henters : t.enters outputDir with
  | true =>
      rw [file_cleanUp listing (Over.refl t outputDir) henters] at h
      split at h
      · cases h
      · exact h
  | false =>
      rw [file_cleanUp_of_not_enters listing henters] at h
      split at h
      · cases h
      · exact h

theorem takeWhile_of_not_enters (h : t.enters outputDir = false) : entries.takeWhile (isWritten t outputDir) = [] := by
  cases entries with
  | nil => rfl
  | cons entry entries =>
      refine List.takeWhile_cons_of_neg fun hwritten => ?_
      obtain ⟨_, henters, _⟩ := isWritten_iff.mp hwritten
      rw [h] at henters
      cases henters

-- A false leaves the files alone exactly if nothing that was there has been replaced or deleted.
theorem keeps_iff (t : FileTree β) (outputPath : String) (zip : Option (Zip β)) :
    Keeps listing t outputPath zip ↔ Unharming listing t outputPath zip := by
  cases zip with
  | none => exact iff_of_true ⟨fun _ _ => rfl, fun _ _ h => .inl h⟩ trivial
  | some zip =>
      unfold Keeps unzip Unharming
      dsimp only
      rw [extractFromZipInputStream_eq]
      simp only [← FileTree.file_mkdirs t (components outputPath)]
      generalize t.mkdirs (components outputPath) = made
      generalize components outputPath = outputDir
      have hentries : ∀ entry ∈ zip.entries.takeWhile (isWritten made outputDir),
          isWritten made outputDir entry = true :=
        List.all_eq_true.mp List.all_takeWhile
      have hover := overwritten_spec hentries
      have hempty := @takeWhile_of_not_enters _ made outputDir zip.entries
      generalize zip.entries.takeWhile (isWritten made outputDir) = entries at hentries hover hempty ⊢
      cases zip.entries.dropWhile (isWritten made outputDir) with
      | nil =>
          simp only [Bool.not_eq_false']
          rw [over_keeps_iff hover]
          exact and_iff_left fun place content h => over_writes hover hentries h
      | cons entry rest =>
          obtain ⟨filename, content⟩ := entry
          simp only [true_implies]
          by_cases hallowed : filename ∈ ONION_SERVICE_CONFIG_FILES
          · rw [if_pos hallowed, if_pos hallowed, over_keeps_iff hover]
            exact and_iff_left fun place content h => over_writes hover hentries h
          · rw [if_neg hallowed, if_neg hallowed]
            rw [and_iff_left fun place content h => over_writes hover hentries (file_cleanUp_some listing h)]
            cases henters : made.enters outputDir with
            | true =>
                rw [if_pos rfl, cleanUp_keeps_iff listing hover henters]
            | false =>
                rw [if_neg Bool.false_ne_true, hempty henters]
                exact cleanUp_keeps_iff_noFile listing henters

def sampleDir : Path := ["onion_services", "v3"]

-- A service that has its host name.
def sampleTree : FileTree Nat :=
  let made := FileTree.bare.mkdirs sampleDir
  (made.write sampleDir "hostname" 1).getD made

-- A foreign entry deletes the host name of the service.
theorem not_keeps_foreign :
    ¬∀ (listing : Listing) (t : FileTree Nat) (outputPath : String) (zip : Option (Zip Nat)),
      Keeps listing t outputPath zip := by
  intro h
  have listing : Listing := ⟨Finset.toList, fun _ _ => Finset.mem_toList⟩
  obtain ⟨hkept, _⟩ := h listing sampleTree "/onion_services/v3" (some ⟨[("readme.txt", 2)], false⟩)
  have hfile : (sampleTree.mkdirs sampleDir).file (normalize sampleDir ++ ["hostname"]) = some 1 := by decide
  have hkept : ∀ place, (cleanUp listing (sampleTree.mkdirs sampleDir) sampleDir).file place =
      sampleTree.file place := by
    rw [show sampleDir = components "/onion_services/v3" by decide]
    exact hkept rfl
  have hcleaned := (cleanUp_keeps_iff listing (Over.refl (sampleTree.mkdirs sampleDir) sampleDir) (by decide)).mp
    fun place => by rw [hkept, FileTree.file_mkdirs]
  have hnames : ∀ name ∈ (sampleTree.mkdirs sampleDir).children (normalize sampleDir),
      (sampleTree.mkdirs sampleDir).leads sampleDir name = false := by decide
  have hreached : "hostname" ∈ reached listing (sampleTree.mkdirs sampleDir) sampleDir ([] : List (String × Nat)) := by
    rw [reached, List.map_nil, List.toFinset_nil, Finset.union_empty, List.takeWhile_eq_self_iff.mpr]
    · exact (listing.mem_list _ _).mpr (by decide)
    · intro name hname
      rw [hnames name ((listing.mem_list _ _).mp hname)]
      rfl
  have hnone := hcleaned "hostname"
  rw [if_pos hreached, hfile] at hnone
  cases hnone

end ToInet.V3onionservice.ZipUtilities
