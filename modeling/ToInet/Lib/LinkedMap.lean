import Mathlib.Data.List.Induction
import Mathlib.Data.List.Nodup

namespace ToInet.Lib

-- A map that keeps the order in which its keys came in.
structure LinkedMap (κ α : Type) where
  entries : List (κ × α)
  nodup : (entries.map Prod.fst).Nodup

namespace LinkedMap

variable {κ α : Type}

def empty : LinkedMap κ α := ⟨[], List.nodup_nil⟩

def keys (map : LinkedMap κ α) : List κ := map.entries.map Prod.fst

@[ext] theorem ext {map other : LinkedMap κ α} (h : map.entries = other.entries) : map = other := by
  cases map
  cases other
  cases h
  rfl

variable [DecidableEq κ]

def get? (map : LinkedMap κ α) (key : κ) : Option α := map.entries.lookup key

-- A key that is there keeps its place, another one comes last.
def putEntries (key : κ) (value : α) : List (κ × α) → List (κ × α)
  | [] => [(key, value)]
  | entry :: entries => if entry.1 = key then (key, value) :: entries else entry :: putEntries key value entries

theorem putEntries_of_notMem {key : κ} {value : α} {entries : List (κ × α)} (h : key ∉ entries.map Prod.fst) :
    putEntries key value entries = entries ++ [(key, value)] := by
  induction entries with
  | nil => rfl
  | cons entry entries ih =>
      rw [List.map_cons, List.mem_cons, not_or] at h
      rw [putEntries, if_neg fun hsame => h.1 hsame.symm, ih h.2]
      rfl

theorem keys_putEntries_of_mem {key : κ} {value : α} {entries : List (κ × α)} (h : key ∈ entries.map Prod.fst) :
    (putEntries key value entries).map Prod.fst = entries.map Prod.fst := by
  induction entries with
  | nil => cases h
  | cons entry entries ih =>
      rw [putEntries]
      split
      · rename_i hsame
        rw [List.map_cons, List.map_cons, hsame]
      · rename_i hne
        rw [List.map_cons, List.mem_cons] at h
        rw [List.map_cons, List.map_cons, ih (h.resolve_left fun hsame => hne hsame.symm)]

theorem nodup_putEntries {key : κ} {value : α} {entries : List (κ × α)} (h : (entries.map Prod.fst).Nodup) :
    ((putEntries key value entries).map Prod.fst).Nodup := by
  by_cases hmem : key ∈ entries.map Prod.fst
  · rw [keys_putEntries_of_mem hmem]
    exact h
  · rw [putEntries_of_notMem hmem, List.map_append]
    refine List.Nodup.append h (List.nodup_singleton key) fun other hother hkey => ?_
    rw [List.map_singleton, List.mem_singleton] at hkey
    rw [hkey] at hother
    exact hmem hother

def put (map : LinkedMap κ α) (key : κ) (value : α) : LinkedMap κ α :=
  ⟨putEntries key value map.entries, nodup_putEntries map.nodup⟩

theorem put_of_notMem {map : LinkedMap κ α} {key : κ} (value : α) (h : key ∉ map.keys) :
    (map.put key value).entries = map.entries ++ [(key, value)] :=
  putEntries_of_notMem h

theorem foldl_put_entries (map : LinkedMap κ α) {entries : List (κ × α)}
    (h : (map.keys ++ entries.map Prod.fst).Nodup) :
    (entries.foldl (fun map entry => map.put entry.1 entry.2) map).entries = map.entries ++ entries := by
  induction entries generalizing map with
  | nil => simp
  | cons entry entries ih =>
      have hmem : entry.1 ∉ map.keys := by
        intro hmem
        exact List.disjoint_of_nodup_append h hmem (List.mem_cons_self)
      have hput := put_of_notMem entry.2 hmem
      rw [List.foldl_cons, ih, hput]
      · simp
      · rw [keys, hput, List.map_append]
        simpa [keys] using h

theorem putEntries_map (f : κ → α) (keys : List κ) (key : κ) :
    putEntries key (f key) (keys.map fun key => (key, f key)) =
      (if key ∈ keys then keys else keys ++ [key]).map fun key => (key, f key) := by
  induction keys with
  | nil => rfl
  | cons first keys ih =>
      rw [List.map_cons, putEntries]
      by_cases hsame : first = key
      · rw [if_pos hsame, if_pos (hsame ▸ List.mem_cons_self), List.map_cons, hsame]
      · have hmem : key ∈ first :: keys ↔ key ∈ keys := List.mem_cons.trans (or_iff_right fun heq => hsame heq.symm)
        rw [if_neg hsame, ih]
        simp only [hmem]
        split <;> rfl

-- A key that is put again and again has its place from the first time.
theorem foldl_put_keys (f : κ → α) (keys : List κ) :
    (keys.foldl (fun map key => map.put key (f key)) empty).entries = keys.eraseDups.map fun key => (key, f key) := by
  induction keys using List.reverseRecOn with
  | nil => rfl
  | append_singleton keys key ih =>
      rw [List.foldl_append, List.foldl_cons, List.foldl_nil]
      refine (congrArg (putEntries key (f key)) ih).trans ?_
      rw [putEntries_map, List.eraseDups_append]
      by_cases hkey : key ∈ keys <;> simp [List.removeAll, List.eraseDups_cons, hkey]

-- Putting all entries of a map into an empty one copies it.
theorem foldl_put_empty (map : LinkedMap κ α) :
    map.entries.foldl (fun map entry => map.put entry.1 entry.2) empty = map := by
  refine ext ?_
  rw [foldl_put_entries empty map.nodup]
  rfl

theorem get?_eq_some_iff {map : LinkedMap κ α} {key : κ} {value : α} :
    map.get? key = some value ↔ (key, value) ∈ map.entries := by
  obtain ⟨entries, hnodup⟩ := map
  induction entries with
  | nil => simp [get?]
  | cons entry entries ih =>
      obtain ⟨other, content⟩ := entry
      rw [List.map_cons, List.nodup_cons] at hnodup
      by_cases hkey : key = other
      · subst hkey
        have hrest : (key, value) ∉ entries := fun hmem => hnodup.1 (List.mem_map.mpr ⟨_, hmem, rfl⟩)
        simp [get?, hrest, eq_comm]
      · have hother := ih hnodup.2
        simp only [get?] at hother ⊢
        rw [List.lookup_cons, beq_false_of_ne hkey]
        simp [hother, hkey]

theorem lookup_cons_eq (key other : κ) (value : α) (entries : List (κ × α)) :
    ((key, value) :: entries).lookup other = if other = key then some value else entries.lookup other := by
  by_cases hkey : other = key
  · rw [List.lookup_cons, hkey, beq_self_eq_true, if_pos rfl]
  · rw [List.lookup_cons, beq_false_of_ne hkey, if_neg hkey]

theorem lookup_putEntries (key other : κ) (value : α) (entries : List (κ × α)) :
    (putEntries key value entries).lookup other = if other = key then some value else entries.lookup other := by
  induction entries with
  | nil => exact lookup_cons_eq key other value []
  | cons entry entries ih =>
      obtain ⟨first, content⟩ := entry
      rw [putEntries]
      by_cases hsame : first = key
      · rw [if_pos hsame, lookup_cons_eq, lookup_cons_eq, hsame]
        split <;> rfl
      · rw [if_neg hsame, lookup_cons_eq, lookup_cons_eq, ih]
        by_cases hkey : other = key
        · rw [if_pos hkey, if_pos hkey, if_neg fun hfirst => hsame (hfirst.symm.trans hkey)]
        · rw [if_neg hkey, if_neg hkey]

theorem get?_put (map : LinkedMap κ α) (key other : κ) (value : α) :
    (map.put key value).get? other = if other = key then some value else map.get? other :=
  lookup_putEntries key other value map.entries

-- Puts what read makes of the items, one behind another; none where it refuses one.
def associate {β : Type} (read : β → Option (κ × α)) (items : List β) : Option (LinkedMap κ α) :=
  items.foldlM (fun map item => (read item).map fun entry => map.put entry.1 entry.2) empty

theorem isSome_associate {β : Type} (read : β → Option (κ × α)) (items : List β) :
    (associate read items).isSome = items.all fun item => (read item).isSome := by
  unfold associate
  generalize (empty : LinkedMap κ α) = map
  induction items generalizing map with
  | nil => rfl
  | cons item items ih =>
      rw [List.foldlM_cons, List.all_cons]
      cases read item with
      | none => rfl
      | some entry => exact ih (map.put entry.1 entry.2)

-- The entries of a map, written one by one, are read in their order.
theorem associate_map {β γ : Type} {map : LinkedMap κ γ} {write : κ × γ → β} {read : β → Option (κ × α)}
    (change : γ → α) (h : ∀ entry ∈ map.entries, read (write entry) = some (entry.1, change entry.2)) :
    ∃ result, associate read (map.entries.map write) = some result ∧
      result.entries = map.entries.map fun entry => (entry.1, change entry.2) := by
  have hfold : ∀ (entries : List (κ × γ)) (before : LinkedMap κ α),
      (∀ entry ∈ entries, read (write entry) = some (entry.1, change entry.2)) →
      (entries.map write).foldlM
          (fun map item => (read item).map fun entry => map.put entry.1 entry.2) before =
        some ((entries.map fun entry => (entry.1, change entry.2)).foldl
          (fun map entry => map.put entry.1 entry.2) before) := by
    intro entries
    induction entries with
    | nil => exact fun _ _ => rfl
    | cons entry entries ih =>
        intro before hread
        rw [List.map_cons, List.foldlM_cons, hread entry List.mem_cons_self]
        exact ih _ fun other hother => hread other (List.mem_cons_of_mem _ hother)
  refine ⟨_, hfold map.entries empty h, ?_⟩
  rw [foldl_put_entries]
  · rfl
  · rw [List.map_map]
    exact map.nodup

-- The values change and the keys stay.
theorem get?_of_map_entries {β : Type} {map : LinkedMap κ α} {other : LinkedMap κ β} {change : α → β}
    (h : other.entries = map.entries.map fun entry => (entry.1, change entry.2)) (key : κ) :
    other.get? key = (map.get? key).map change := by
  rw [get?, get?, h]
  induction map.entries with
  | nil => rfl
  | cons entry entries ih =>
      rw [List.map_cons, List.lookup_cons, List.lookup_cons, ih]
      cases key == entry.1 <;> rfl

end LinkedMap

end ToInet.Lib
