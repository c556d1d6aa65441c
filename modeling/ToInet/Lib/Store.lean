import Mathlib.Data.List.AList

namespace ToInet.Lib

-- A store maps each of its keys to one value.
abbrev Store (κ α : Type) := AList (fun _ : κ => α)

namespace Store

variable {κ α β : Type} [DecidableEq κ]

def putEntry (put : κ → α → Option β) (target : Store κ β) (entry : Sigma fun _ : κ => α) : Store κ β :=
  match put entry.1 entry.2 with
  | some value => target.insert entry.1 value
  | none => target

-- Writes what put makes of each entry; an entry that it refuses is left out.
def putAll (put : κ → α → Option β) (source : Store κ α) (target : Store κ β) : Store κ β :=
  source.entries.foldl (putEntry put) target

theorem lookup_putEntry (put : κ → α → Option β) (target : Store κ β) (entry : Sigma fun _ : κ => α)
    (key : κ) :
    (putEntry put target entry).lookup key =
      if key = entry.1 then (put key entry.2).or (target.lookup key) else target.lookup key := by
  unfold putEntry
  split
  · rename_i value hput
    split
    · rename_i hkey
      rw [hkey, hput, AList.lookup_insert]
      rfl
    · rename_i hkey
      rw [AList.lookup_insert_ne hkey]
  · rename_i hput
    split
    · rename_i hkey
      rw [hkey, hput]
      rfl
    · rfl

theorem lookup_foldl_putEntry (put : κ → α → Option β) (entries : List (Sigma fun _ : κ => α))
    (hkeys : entries.NodupKeys) (target : Store κ β) (key : κ) :
    (entries.foldl (putEntry put) target).lookup key =
      ((entries.dlookup key).bind (put key)).or (target.lookup key) := by
  induction entries generalizing target with
  | nil => rfl
  | cons entry entries ih =>
      rw [List.nodupKeys_cons] at hkeys
      rw [List.foldl_cons, ih hkeys.2, lookup_putEntry]
      by_cases hkey : key = entry.1
      · subst hkey
        rw [List.dlookup_cons_eq, List.dlookup_eq_none.mpr hkeys.1, if_pos rfl]
        rfl
      · rw [List.dlookup_cons_ne _ _ hkey, if_neg hkey]

theorem lookup_putAll (put : κ → α → Option β) (source : Store κ α) (target : Store κ β) (key : κ) :
    (putAll put source target).lookup key =
      ((source.lookup key).bind (put key)).or (target.lookup key) :=
  lookup_foldl_putEntry put source.entries source.nodupKeys target key

end Store

end ToInet.Lib
