import ToInet.Lib.Store
import Mathlib.Data.Finset.Basic
import Mathlib.Data.Finset.Dedup

-- Directories and files under a root, and what the calls of a file system do to them.
namespace ToInet.Lib

-- The names on the way from the root.
abbrev Path := List String

inductive FileNode (β : Type) where
  | directory
  | file (content : β)

def Proper (name : String) : Prop := name ∉ ["", ".", ".."]

instance : DecidablePred Proper := fun name => inferInstanceAs (Decidable (name ∉ ["", ".", ".."]))

-- Every node but the root has a name of its own in a directory.
structure FileTree (β : Type) where
  nodes : Store Path (FileNode β)
  root : nodes.lookup [] = some .directory
  parent : ∀ dir name, dir ++ [name] ∈ nodes → nodes.lookup dir = some .directory ∧ Proper name

-- The order in which a directory lists its names is up to the file system.
structure Listing where
  list : Finset String → List String
  mem_list : ∀ names name, name ∈ list names ↔ name ∈ names

namespace FileTree

variable {β : Type} (t : FileTree β)

def step (dir : Path) (name : String) : Path :=
  if name = "." then dir else if name = ".." then dir.dropLast else dir ++ [name]

-- Where a path leads to.
def normalize (path : Path) : Path := path.foldl step []

def isDir (path : Path) : Bool :=
  match t.nodes.lookup path with
  | some .directory => true
  | _ => false

def file (path : Path) : Option β :=
  match t.nodes.lookup path with
  | some (.file content) => some content
  | _ => none

-- Each directory on the way is there, and the path leads to one itself.
def enters (path : Path) : Bool := path.inits.all fun front => t.isDir (normalize front)

def children (dir : Path) : Finset String :=
  (t.nodes.keys.filterMap fun path => if path.dropLast = dir then path.getLast? else none).toFinset

def deletable (path : Path) : Bool :=
  match t.nodes.lookup path with
  | some .directory => t.children path = ∅
  | some (.file _) => true
  | none => false

-- A root with nothing in it.
def bare : FileTree β where
  nodes := AList.singleton [] .directory
  root := rfl
  parent dir name hmem := by
    rw [AList.mem_keys, AList.keys_singleton, List.mem_singleton] at hmem
    simp at hmem

variable {t}

theorem isDir_iff {path : Path} : t.isDir path = true ↔ t.nodes.lookup path = some .directory := by
  unfold isDir
  split <;> simp_all

theorem mem_children {dir : Path} {name : String} : name ∈ t.children dir ↔ dir ++ [name] ∈ t.nodes := by
  rw [children, List.mem_toFinset, List.mem_filterMap]
  constructor
  · rintro ⟨path, hpath, h⟩
    split at h
    · rename_i hdir
      rw [← hdir, List.dropLast_append_getLast? name h, AList.mem_keys]
      exact hpath
    · cases h
  · intro h
    exact ⟨dir ++ [name], AList.mem_keys.mp h, by simp⟩

-- A node in a directory that has nothing by this name, or a file.
def put (node : FileNode β) (dir : Path) (name : String)
    (h : t.isDir dir = true ∧ Proper name ∧ t.isDir (dir ++ [name]) = false) : FileTree β where
  nodes := t.nodes.insert (dir ++ [name]) node
  root := by
    rw [AList.lookup_insert_ne (by simp)]
    exact t.root
  parent other last hmem := by
    obtain ⟨hdir, hproper, hfree⟩ := h
    rw [AList.mem_insert] at hmem
    obtain hsame | hmem := hmem
    · obtain ⟨rfl, hlast⟩ := List.append_inj' hsame rfl
      obtain rfl := List.singleton_inj.mp hlast
      rw [AList.lookup_insert_ne (by simp)]
      exact ⟨isDir_iff.mp hdir, hproper⟩
    · obtain ⟨hlookup, hlast⟩ := t.parent other last hmem
      refine ⟨?_, hlast⟩
      rw [AList.lookup_insert_ne, hlookup]
      rintro rfl
      rw [isDir_iff.mpr hlookup] at hfree
      cases hfree

def remove (dir : Path) (name : String) (h : t.deletable (dir ++ [name]) = true) : FileTree β where
  nodes := t.nodes.erase (dir ++ [name])
  root := by
    rw [AList.lookup_erase_ne (by simp)]
    exact t.root
  parent other last hmem := by
    obtain ⟨_, hmem⟩ := AList.mem_erase.mp hmem
    obtain ⟨hlookup, hlast⟩ := t.parent other last hmem
    refine ⟨?_, hlast⟩
    rw [AList.lookup_erase_ne, hlookup]
    -- A directory that is deleted has no nodes.
    rintro rfl
    unfold deletable at h
    rw [hlookup, decide_eq_true_iff] at h
    exact absurd (mem_children.mpr hmem) (by rw [h]; exact Finset.notMem_empty last)

variable (t)

-- Opening a file for writing needs its directory, and nothing else by its name but a file.
def write (path : Path) (name : String) (content : β) : Option (FileTree β) :=
  if h : t.enters path = true ∧ Proper name ∧ t.isDir (normalize path ++ [name]) = false then
    some (t.put (.file content) (normalize path) name ⟨List.all_eq_true.mp h.1 path (by simp), h.2⟩)
  else none

-- Only an empty directory is deleted.
def delete (path : Path) (name : String) : FileTree β :=
  if h : t.enters path = true ∧ t.deletable (normalize path ++ [name]) = true then
    t.remove (normalize path) name h.2
  else t

def deletePath (path : Path) : FileTree β :=
  match path.getLast? with
  | some name => t.delete path.dropLast name
  | none => t

def makeDir (dir : Path) (name : String) : FileTree β :=
  if h : t.isDir dir = true ∧ Proper name ∧ dir ++ [name] ∉ t.nodes then
    t.put .directory dir name ⟨h.1, h.2.1, by
      rw [Bool.eq_false_iff, ne_eq, isDir_iff, AList.lookup_eq_none.mpr h.2.2]
      nofun⟩
  else t

def makeDirs (t : FileTree β) (dir : Path) : List String → FileTree β
  | [] => t
  | name :: names => makeDirs (t.makeDir dir name) (dir ++ [name]) names

-- The directories that are missing where the path leads to. The way there is not followed: a
-- directory that the path leaves again is not made.
def mkdirs (path : Path) : FileTree β := t.makeDirs [] (normalize path)

def listFiles (listing : Listing) (path : Path) : Option (List String) :=
  if t.enters path then some (listing.list (t.children (normalize path))) else none

variable {t} {path dir place : Path} {name : String}

-- A file can be written by this name.
def Writable (t : FileTree β) (path : Path) (name : String) : Prop :=
  t.enters path = true ∧ Proper name ∧ t.isDir (normalize path ++ [name]) = false

instance : Decidable (t.Writable path name) :=
  inferInstanceAs (Decidable (t.enters path = true ∧ Proper name ∧ t.isDir (normalize path ++ [name]) = false))

theorem isDir_normalize (h : t.enters path = true) {front : Path} (hfront : front ∈ path.inits) :
    t.isDir (normalize front) = true :=
  List.all_eq_true.mp h front hfront

theorem enters_congr {other : FileTree β} (h : ∀ dir, other.isDir dir = t.isDir dir) (path : Path) :
    other.enters path = t.enters path := by
  unfold enters
  simp only [h]

theorem file_eq_none_of_isDir (h : t.isDir path = true) : t.file path = none := by
  rw [file, isDir_iff.mp h]

-- What is written is one file; the directories stay.
theorem exists_write (h : t.Writable path name) (content : β) :
    ∃ next, t.write path name content = some next ∧ (∀ dir, next.isDir dir = t.isDir dir) ∧
      (∀ place, next.file place = if place = normalize path ++ [name] then some content else t.file place) ∧
      ∀ dir last, last ∈ next.children dir ↔ dir ++ [last] = normalize path ++ [name] ∨ last ∈ t.children dir := by
  refine ⟨_, dif_pos h, fun dir => ?_, fun place => ?_, fun dir last => ?_⟩
  · by_cases hdir : dir = normalize path ++ [name]
    · rw [hdir, h.2.2]
      unfold isDir
      rw [put, AList.lookup_insert]
    · rw [isDir, isDir, put, AList.lookup_insert_ne hdir]
  · split
    · rename_i hat
      rw [hat, file, put, AList.lookup_insert]
    · rename_i hat
      rw [file, file, put, AList.lookup_insert_ne hat]
  · rw [mem_children, mem_children, put, AList.mem_insert]

theorem write_of_not_writable (h : ¬t.Writable path name) (content : β) : t.write path name content = none := dif_neg h

theorem delete_of_not_enters (h : t.enters path = false) (name : String) : t.delete path name = t := by
  refine dif_neg ?_
  rw [h]
  nofun

theorem lookup_delete (t : FileTree β) (path : Path) (name : String) (place : Path) :
    (t.delete path name).nodes.lookup place =
      if t.enters path = true ∧ t.deletable (normalize path ++ [name]) = true ∧
        place = normalize path ++ [name] then none
      else t.nodes.lookup place := by
  unfold delete
  split
  · rename_i h
    by_cases hat : place = normalize path ++ [name]
    · rw [if_pos ⟨h.1, h.2, hat⟩, hat, remove, AList.lookup_erase]
    · rw [if_neg fun hall => hat hall.2.2, remove, AList.lookup_erase_ne hat]
  · rename_i h
    rw [if_neg fun hall => h ⟨hall.1, hall.2.1⟩]

theorem file_delete (t : FileTree β) (path : Path) (name : String) (place : Path) :
    (t.delete path name).file place =
      if t.enters path = true ∧ place = normalize path ++ [name] then none else t.file place := by
  rw [file, lookup_delete]
  by_cases hat : t.enters path = true ∧ place = normalize path ++ [name]
  · obtain ⟨henters, rfl⟩ := hat
    rw [if_pos (show t.enters path = true ∧ normalize path ++ [name] = normalize path ++ [name] from ⟨henters, rfl⟩)]
    cases hdeletable : t.deletable (normalize path ++ [name]) with
    | true => rw [if_pos ⟨henters, rfl, rfl⟩]
    -- What is kept by the name is a directory, or there is nothing.
    | false =>
        rw [if_neg fun hall => Bool.false_ne_true hall.2.1]
        unfold deletable at hdeletable
        split at hdeletable
        · rename_i hlookup
          rw [hlookup]
        · cases hdeletable
        · rename_i hlookup
          rw [hlookup]
  · rw [if_neg hat, if_neg fun hall => hat ⟨hall.1, hall.2.2⟩, file]

theorem file_deletePath (t : FileTree β) (path place : Path) :
    (t.deletePath path).file place =
      if t.enters path.dropLast = true ∧ ∃ name, path.getLast? = some name ∧
        place = normalize path.dropLast ++ [name] then none
      else t.file place := by
  unfold deletePath
  split
  · rename_i name hname
    rw [file_delete]
    simp only [hname, Option.some.injEq, exists_eq_left']
  · rename_i hnone
    rw [if_neg]
    rintro ⟨_, name, hname, _⟩
    rw [hnone] at hname
    cases hname

theorem file_makeDir (t : FileTree β) (dir : Path) (name : String) (place : Path) :
    (t.makeDir dir name).file place = t.file place := by
  unfold makeDir
  split
  · rename_i h
    by_cases hat : place = dir ++ [name]
    · rw [hat, file, file, put, AList.lookup_insert, AList.lookup_eq_none.mpr h.2.2]
    · rw [file, file, put, AList.lookup_insert_ne hat]
  · rfl

theorem file_makeDirs (names : List String) (t : FileTree β) (dir place : Path) :
    (t.makeDirs dir names).file place = t.file place := by
  induction names generalizing t dir with
  | nil => rfl
  | cons name names ih => rw [makeDirs, ih, file_makeDir]

theorem file_mkdirs (t : FileTree β) (path place : Path) : (t.mkdirs path).file place = t.file place :=
  file_makeDirs _ _ _ _

theorem isDir_delete (t : FileTree β) (path : Path) (name : String) (place : Path) :
    (t.delete path name).isDir place = true ↔
      t.isDir place = true ∧
        ¬(t.enters path = true ∧ t.deletable (normalize path ++ [name]) = true ∧ place = normalize path ++ [name]) := by
  rw [isDir_iff, isDir_iff, lookup_delete]
  split
  · rename_i hdeleted
    exact iff_of_false nofun fun h => h.2 hdeleted
  · rename_i hkept
    exact (and_iff_left hkept).symm

theorem mem_children_delete (t : FileTree β) (path : Path) (name : String) (dir : Path) (last : String) :
    last ∈ (t.delete path name).children dir ↔
      last ∈ t.children dir ∧ ¬(t.enters path = true ∧ t.deletable (normalize path ++ [name]) = true ∧
        dir ++ [last] = normalize path ++ [name]) := by
  rw [mem_children, mem_children, ← AList.lookup_isSome, ← AList.lookup_isSome, lookup_delete]
  split
  · rename_i hdeleted
    exact iff_of_false nofun fun h => h.2 hdeleted
  · rename_i hkept
    exact (and_iff_left hkept).symm

-- An empty directory by this name where the path leads to, which the path has come through.
def leads (t : FileTree β) (path : Path) (name : String) : Bool :=
  t.isDir (normalize path ++ [name]) ∧ t.children (normalize path ++ [name]) = ∅ ∧
    normalize path ++ [name] ∈ path.inits.map normalize

theorem leads_iff :
    t.leads path name = true ↔
      t.isDir (normalize path ++ [name]) = true ∧ t.children (normalize path ++ [name]) = ∅ ∧
        ∃ front ∈ path.inits, normalize front = normalize path ++ [name] := by
  simp only [leads, decide_eq_true_iff, List.mem_map]

theorem deletable_of_isDir (h : t.isDir place = true) : t.deletable place = true ↔ t.children place = ∅ := by
  unfold deletable
  rw [isDir_iff.mp h, decide_eq_true_iff]

-- The way is cut.
theorem enters_delete_of_leads (henters : t.enters path = true) (h : t.leads path name = true) :
    (t.delete path name).enters path = false := by
  obtain ⟨hdir, hempty, front, hfront, hplace⟩ := leads_iff.mp h
  rw [Bool.eq_false_iff]
  intro hstill
  have hgone := (isDir_delete t path name _).mp (isDir_normalize hstill hfront)
  exact hgone.2 ⟨henters, (deletable_of_isDir hdir).mpr hempty, hplace⟩

theorem enters_delete (henters : t.enters path = true) (h : t.leads path name = false) :
    (t.delete path name).enters path = true := by
  refine List.all_eq_true.mpr fun front hfront => (isDir_delete t path name _).mpr ⟨isDir_normalize henters hfront, ?_⟩
  rintro ⟨_, hdeletable, hplace⟩
  have hdir := isDir_normalize henters hfront
  rw [hplace] at hdir
  rw [Bool.eq_false_iff] at h
  exact h (leads_iff.mpr ⟨hdir, (deletable_of_isDir hdir).mp hdeletable, front, hfront, hplace⟩)

theorem leads_delete (h : t.leads path name = false) (other : String) :
    (t.delete path name).leads path other = t.leads path other := by
  have hchildren : (t.delete path name).children (normalize path ++ [other]) =
      t.children (normalize path ++ [other]) := by
    ext last
    rw [mem_children_delete]
    refine and_iff_left fun hall => ?_
    have hlength := congrArg List.length hall.2.2
    simp at hlength
  rw [Bool.eq_iff_iff, leads_iff, leads_iff, isDir_delete, hchildren]
  constructor
  · rintro ⟨⟨hdir, _⟩, hrest⟩
    exact ⟨hdir, hrest⟩
  · rintro ⟨hdir, hempty, hway⟩
    refine ⟨⟨hdir, ?_⟩, hempty, hway⟩
    rintro ⟨_, _, hplace⟩
    rw [hplace] at hdir hempty hway
    rw [Bool.eq_false_iff] at h
    exact h (leads_iff.mpr ⟨hdir, hempty, hway⟩)

-- The files are deleted up to the name of a directory without which the path leads nowhere.
theorem file_foldl_delete (names : List String) (h : t.enters path = true) (place : Path) :
    (names.foldl (fun t name => t.delete path name) t).file place =
      if ∃ name ∈ names.takeWhile fun name => !t.leads path name, place = normalize path ++ [name] then none
      else t.file place := by
  induction names generalizing t with
  | nil => simp
  | cons name names ih =>
      rw [List.foldl_cons]
      cases hleads : t.leads path name with
      | true =>
          have hcut := enters_delete_of_leads h hleads
          have hrest : names.foldl (fun t name => t.delete path name) (t.delete path name) = t.delete path name := by
            clear ih
            induction names with
            | nil => rfl
            | cons other names ihRest => rw [List.foldl_cons, delete_of_not_enters hcut, ihRest]
          rw [hrest, List.takeWhile_cons_of_neg (by simp [hleads]), file_delete]
          obtain ⟨hdir, _⟩ := leads_iff.mp hleads
          by_cases hplace : place = normalize path ++ [name]
          · rw [if_pos ⟨h, hplace⟩, hplace, file_eq_none_of_isDir hdir]
            simp
          · rw [if_neg fun hall => hplace hall.2]
            simp
      | false =>
          rw [ih (enters_delete h hleads), List.takeWhile_cons_of_pos (by simp [hleads])]
          simp only [leads_delete hleads, file_delete, List.mem_cons, exists_eq_or_imp]
          by_cases hplace : place = normalize path ++ [name]
          · simp [h, hplace]
          · simp [hplace]

theorem file_of_not_proper (h : ¬Proper name) (dir : Path) : t.file (dir ++ [name]) = none := by
  have hnone : dir ++ [name] ∉ t.nodes := fun hmem => h (t.parent dir name hmem).2
  rw [file, AList.lookup_eq_none.mpr hnone]

theorem normalize_of_proper (h : Proper name) (hlast : path.getLast? = some name) :
    normalize path = normalize path.dropLast ++ [name] := by
  have hpath : path.dropLast ++ [name] = path := List.dropLast_append_getLast? name hlast
  have hstep : step (normalize path.dropLast) name = normalize path.dropLast ++ [name] := by
    unfold Proper at h
    rw [step, if_neg (by rintro rfl; simp at h), if_neg (by rintro rfl; simp at h)]
  rw [← hstep]
  conv_lhs => rw [← hpath]
  rw [normalize, List.foldl_append, normalize, List.foldl_cons, List.foldl_nil]

-- Deleting where there is no file changes no file.
theorem file_deletePath_of_none (h : t.file (normalize path) = none) (place : Path) :
    (t.deletePath path).file place = t.file place := by
  rw [file_deletePath]
  split
  · rename_i hdeleted
    obtain ⟨_, name, hlast, rfl⟩ := hdeleted
    by_cases hproper : Proper name
    · rw [← normalize_of_proper hproper hlast, h]
    · rw [file_of_not_proper hproper]
  · rfl

theorem normalize_eq_self (h : ∀ name ∈ path, Proper name) : normalize path = path := by
  induction path using List.reverseRecOn with
  | nil => rfl
  | append_singleton path name ih =>
      rw [normalize_of_proper (h name (by simp)) (by simp), List.dropLast_concat,
        ih fun other hother => h other (by simp [hother])]

-- What leads to a directory is a directory.
theorem isDir_of_append {more : Path} (h : t.isDir (path ++ more) = true) : t.isDir path = true := by
  induction more using List.reverseRecOn with
  | nil => rwa [List.append_nil] at h
  | append_singleton more name ih =>
      rw [← List.append_assoc] at h
      have hmem : (path ++ more) ++ [name] ∈ t.nodes := by
        rw [← AList.lookup_isSome, isDir_iff.mp h]
        rfl
      exact ih (isDir_iff.mpr (t.parent _ name hmem).1)

theorem enters_of_proper (h : ∀ name ∈ path, Proper name) : t.enters path = t.isDir path := by
  rw [Bool.eq_iff_iff]
  constructor
  · intro henters
    have hdir := isDir_normalize henters (show path ∈ path.inits by simp)
    rwa [normalize_eq_self h] at hdir
  · intro hdir
    refine List.all_eq_true.mpr fun front hfront => ?_
    obtain ⟨more, rfl⟩ := (List.mem_inits _ _).mp hfront
    rw [normalize_eq_self fun name hname => h name (List.mem_append_left more hname)]
    exact isDir_of_append hdir

theorem lookup_makeDir (t : FileTree β) (dir : Path) (name : String) (place : Path) :
    (t.makeDir dir name).nodes.lookup place =
      if t.isDir dir = true ∧ Proper name ∧ dir ++ [name] ∉ t.nodes ∧ place = dir ++ [name] then some .directory
      else t.nodes.lookup place := by
  unfold makeDir
  split
  · rename_i h
    by_cases hat : place = dir ++ [name]
    · rw [if_pos ⟨h.1, h.2.1, h.2.2, hat⟩, hat, put, AList.lookup_insert]
    · rw [if_neg fun hall => hat hall.2.2.2, put, AList.lookup_insert_ne hat]
  · rename_i h
    rw [if_neg fun hall => h ⟨hall.1, hall.2.1, hall.2.2.1⟩]

theorem makeDir_of_mem (h : dir ++ [name] ∈ t.nodes) : t.makeDir dir name = t :=
  dif_neg fun hall => hall.2.2 h

theorem makeDirs_append (t : FileTree β) (dir : Path) (names more : List String) :
    t.makeDirs dir (names ++ more) = (t.makeDirs dir names).makeDirs (dir ++ names) more := by
  induction names generalizing t dir with
  | nil => rw [List.nil_append, List.append_nil, makeDirs]
  | cons name names ih => rw [List.cons_append, makeDirs, ih, makeDirs, List.append_assoc, List.singleton_append]

theorem makeDirs_of_isDir {names : List String} (h : t.isDir (dir ++ names) = true) : t.makeDirs dir names = t := by
  induction names generalizing dir with
  | nil => rfl
  | cons name names ih =>
      rw [List.append_cons] at h
      have hmem : dir ++ [name] ∈ t.nodes := by
        rw [← AList.lookup_isSome, isDir_iff.mp (isDir_of_append h)]
        rfl
      rw [makeDirs, makeDir_of_mem hmem, ih h]

theorem mkdirs_append (h : ∀ other ∈ dir ++ [name], Proper other) (hdir : t.isDir dir = true) :
    t.mkdirs (dir ++ [name]) = t.makeDir dir name := by
  have hthere : t.makeDirs [] dir = t := makeDirs_of_isDir (by rwa [List.nil_append])
  rw [mkdirs, normalize_eq_self h, makeDirs_append, hthere, List.nil_append, makeDirs, makeDirs]

theorem lookup_write {next : FileTree β} {content : β} (h : t.write path name content = some next) (place : Path) :
    next.nodes.lookup place =
      if place = normalize path ++ [name] then some (.file content) else t.nodes.lookup place := by
  unfold write at h
  split at h
  · rw [← Option.some.inj h, put]
    split
    · rename_i hat
      rw [hat, AList.lookup_insert]
    · rename_i hat
      rw [AList.lookup_insert_ne hat]
  · cases h

end FileTree

end ToInet.Lib
