import ToInet.Byedpi.DomainListUtils

namespace ToInet.Byedpi

open ToInet.Lib ToInet.Lib.KeyedList

namespace DomainListUtils

-- The lists of one id, in their order.
abbrev view (id : List Char) (lists : List DomainList) : List DomainList := ofKey DomainList.id id lists

theorem mem_view {id : List Char} {lists : List DomainList} {list : DomainList} :
    list ∈ view id lists ↔ list ∈ lists ∧ list.id = id :=
  mem_ofKey

theorem assetFile_eq {file : List Char} (h : isAssetFile file = true) :
    file = assetStart ++ assetId file ++ assetEnd := by
  obtain ⟨hstart, hend⟩ := (Bool.and_eq_true_iff).mp h
  rw [List.isPrefixOf_iff_prefix] at hstart
  rw [List.isSuffixOf_iff_suffix] at hend
  obtain ⟨rest, rfl⟩ := hstart
  -- The start has no dot, so the end does not reach into it.
  have hsuffix : assetEnd <:+ rest := by
    rcases Nat.le_total assetEnd.length rest.length with hle | hle
    · exact List.suffix_of_suffix_length_le hend (List.suffix_append _ _) hle
    · obtain ⟨shared, hshared⟩ := List.suffix_of_suffix_length_le (List.suffix_append assetStart rest) hend hle
      cases shared with
      | nil => exact ⟨[], hshared.symm⟩
      | cons c shared =>
          obtain ⟨before, hbefore⟩ := hend
          have hstart : assetStart = before ++ c :: shared := by
            rw [← hshared, ← List.append_assoc] at hbefore
            exact (List.append_cancel_right hbefore).symm
          have hdot : c = '.' := (List.cons.inj hshared).1
          have hmem : '.' ∈ assetStart := by
            rw [hstart, hdot]
            simp
          exact absurd hmem (by decide)
  obtain ⟨id, rfl⟩ := hsuffix
  have hprefix : removePrefix assetStart (assetStart ++ (id ++ assetEnd)) = id ++ assetEnd := by
    simp [removePrefix]
  have hid : assetId (assetStart ++ (id ++ assetEnd)) = id := by
    rw [assetId, hprefix]
    simp [removeSuffix]
  rw [hid, List.append_assoc]

-- No two files of the assets make lists of one id.
theorem newBuiltInIds_nodup (assets : Assets) : (newBuiltInIds assets).Nodup := by
  have hfiles := assets.nodup.of_map.filter fun asset => isAssetFile asset.1
  rw [newBuiltInIds, assetLists, List.map_map]
  refine List.Nodup.map_on ?_ hfiles
  intro asset hasset other hother hids
  rw [List.mem_filter] at hasset hother
  have hfile : asset.1 = other.1 := by
    rw [assetFile_eq hasset.2, assetFile_eq hother.2]
    exact congrArg (fun id => assetStart ++ id ++ assetEnd) hids
  exact List.inj_on_of_nodup_map assets.nodup hasset.1 hother.1 hfile

variable {letters : Letters}

theorem builtInMap_eq (lists : List DomainList) (id : List Char) :
    builtInMap lists id = ((view id lists).filter fun list => list.isBuiltIn).getLast? := by
  rw [builtInMap, List.filter_comm]
  rfl

theorem id_of_builtInMap {lists : List DomainList} {id : List Char} {existing : DomainList}
    (h : builtInMap lists id = some existing) : existing ∈ view id lists ∧ existing.isBuiltIn = true := by
  rw [builtInMap_eq] at h
  exact List.mem_filter.mp (List.mem_of_getLast? h)

-- What one asset makes of the lists that have its id.
def syncedView (letters : Letters) (lang : List Char) (asset : List Char × List (List Char))
    (lists : List DomainList) : List DomainList :=
  match (lists.filter fun list => list.isBuiltIn).getLast? with
  | none => lists ++ [newBuiltIn letters lang asset]
  | some existing =>
      if existing.isDeleted ∨ existing.isModified then lists
      else { existing with domains := asset.2 } :: lists.tail

theorem view_syncAsset_of_ne (lang : List Char) {start lists : List DomainList} {asset : List Char × List (List Char)}
    {id : List Char} (hne : asset.1 ≠ id) :
    view id (syncAsset letters lang (builtInMap start) lists asset) = view id lists := by
  rw [syncAsset]
  split
  · have hnew : (newBuiltIn letters lang asset).id ≠ id := hne
    rw [view, ofKey_append, ofKey_singleton_of_ne hnew, List.append_nil]
  · rename_i existing hexisting
    have hid := (mem_view.mp (id_of_builtInMap hexisting).1).2
    split
    · rfl
    · split
      · rfl
      · split
        · rename_i index hindex
          exact ofKey_set_of_ne hindex hid hne
        · rfl

theorem view_syncAsset_self (lang : List Char) {start lists : List DomainList} {asset : List Char × List (List Char)}
    (hview : view asset.1 lists = view asset.1 start) :
    view asset.1 (syncAsset letters lang (builtInMap start) lists asset) =
      syncedView letters lang asset (view asset.1 start) := by
  rw [syncAsset, syncedView, ← builtInMap_eq]
  cases hexisting : builtInMap start asset.1 with
  | none =>
      rw [view, ofKey_append, ofKey_singleton_self (by rfl), ← hview]
  | some existing =>
      have hmem := (id_of_builtInMap hexisting).1
      have hid := (mem_view.mp hmem).2
      by_cases hmarked : existing.isDeleted ∨ existing.isModified
      · rcases hmarked with hdeleted | hmodified
        · simpa [hdeleted] using hview
        · simpa [hmodified] using hview
      · obtain ⟨hdeleted, hmodified⟩ := not_or.mp hmarked
        simp only [hdeleted, hmodified, or_self]
        cases hindex : indexOfFirst asset.1 lists with
        | none =>
            have hnil := first_eq_none.mp hindex
            rw [show ofKey DomainList.id asset.1 lists = view asset.1 start from hview] at hnil
            rw [hnil] at hmem
            cases hmem
        | some index =>
            rw [← hview]
            exact ofKey_set_first hindex (by exact hid)

theorem view_foldl_of_notMem (lang : List Char) {start lists : List DomainList}
    {assets : List (List Char × List (List Char))} {id : List Char} (h : id ∉ assets.map Prod.fst) :
    view id (assets.foldl (syncAsset letters lang (builtInMap start)) lists) = view id lists := by
  induction assets generalizing lists with
  | nil => rfl
  | cons asset assets ih =>
      rw [List.map_cons, List.mem_cons, not_or] at h
      rw [List.foldl_cons, ih h.2, view_syncAsset_of_ne lang (Ne.symm h.1)]

theorem view_foldl_of_mem (lang : List Char) {start lists : List DomainList}
    {assets : List (List Char × List (List Char))} (hnodup : (assets.map Prod.fst).Nodup)
    {asset : List Char × List (List Char)} (h : asset ∈ assets)
    (hview : view asset.1 lists = view asset.1 start) :
    view asset.1 (assets.foldl (syncAsset letters lang (builtInMap start)) lists) =
      syncedView letters lang asset (view asset.1 start) := by
  induction assets generalizing lists with
  | nil => cases h
  | cons other assets ih =>
      rw [List.map_cons, List.nodup_cons] at hnodup
      rw [List.foldl_cons]
      rcases List.mem_cons.mp h with rfl | hmem
      · rw [view_foldl_of_notMem lang hnodup.1, view_syncAsset_self lang hview]
      · have hne : other.1 ≠ asset.1 := fun hsame => hnodup.1 (hsame ▸ List.mem_map_of_mem hmem)
        exact ih hnodup.2 hmem (by rw [view_syncAsset_of_ne lang hne, hview])

section

variable (letters) (assets : Assets) (lang : List Char) (lists : List DomainList)

theorem view_syncLists_of_notMem {id : List Char} (h : id ∉ newBuiltInIds assets) :
    view id (syncLists letters assets lang lists) =
      (view id lists).filter fun list => !list.isBuiltIn := by
  rw [view, syncLists, ofKey_filter]
  refine (List.filter_congr fun list hlist => ?_).trans
    (congrArg (List.filter _) (view_foldl_of_notMem lang h))
  have hid := (mem_view.mp hlist).2
  simp [hid, h]

theorem view_syncLists_of_mem {asset : List Char × List (List Char)} (h : asset ∈ assetLists assets) :
    view asset.1 (syncLists letters assets lang lists) =
      syncedView letters lang asset (view asset.1 lists) := by
  have hasset : asset.1 ∈ newBuiltInIds assets := List.mem_map_of_mem h
  rw [view, syncLists, ofKey_filter, List.filter_eq_self.mpr]
  · exact view_foldl_of_mem lang (newBuiltInIds_nodup assets) h rfl
  · intro list hlist
    have hid := (mem_view.mp hlist).2
    simp [hid, hasset]

end

-- What an operation of the user does to the lists of one id.
inductive Edited : List DomainList → List DomainList → Prop
  | same (lists) : Edited lists lists
  | removed (lists) : Edited lists lists.tail
  | changed (list) (lists : List DomainList) (hsome : lists ≠ []) : Edited lists (list :: lists.tail)
  | added (list) : Edited [] [list]

theorem edited_set {lists : List DomainList} {k id : List Char} {index : Fin lists.length} {list : DomainList}
    (hindex : indexOfFirst k lists = some index) (hlist : list.id = k) :
    Edited (view id lists) (view id (lists.set index list)) := by
  by_cases hid : k = id
  · subst hid
    rw [view, view, ofKey_set_first hindex hlist]
    refine .changed list _ ?_
    rw [ofKey_first hindex]
    exact List.cons_ne_nil _ _
  · rw [view, view, ofKey_set_of_ne hindex hlist hid]
    exact .same _

theorem edited_eraseIdx {lists : List DomainList} {k id : List Char} {index : Fin lists.length}
    (hindex : indexOfFirst k lists = some index) :
    Edited (view id lists) (view id (lists.eraseIdx index)) := by
  by_cases hid : k = id
  · subst hid
    rw [view, view, ofKey_eraseIdx_first hindex]
    exact .removed _
  · rw [view, view, ofKey_eraseIdx_of_ne hindex hid]
    exact .same _

theorem edited_append {lists : List DomainList} {list : DomainList} (hindex : indexOfFirst list.id lists = none)
    (id : List Char) : Edited (view id lists) (view id (lists ++ [list])) := by
  rw [view, view, ofKey_append]
  by_cases hid : list.id = id
  · subst hid
    rw [ofKey_singleton_self rfl, first_eq_none.mp hindex]
    exact .added list
  · rw [ofKey_singleton_of_ne hid, List.append_nil]
    exact .same _

theorem edited_addList (name : List Char) (domains : List (List Char)) (lists : List DomainList) (id : List Char) :
    Edited (view id lists) (view id (perform letters lists (.addList name domains))) := by
  simp only [perform, addList]
  cases hindex : indexOfFirst (idOf letters name) lists with
  | none => exact edited_append hindex id
  | some index =>
      by_cases hrevived : lists[index].isBuiltIn ∧ lists[index].isDeleted
      · simp only [hrevived, and_self, if_true, Option.getD_some]
        exact edited_set hindex (key_first hindex)
      · simp only [hrevived, if_false, Option.getD_none]
        exact .same _

-- An operation that looks for an id leaves all as it is where no list has it.
theorem edited_map {lists : List DomainList} {k id : List Char} {write : Fin lists.length → List DomainList}
    (hwrite : ∀ index, indexOfFirst k lists = some index → Edited (view id lists) (view id (write index))) :
    Edited (view id lists) (view id (((indexOfFirst k lists).map write).getD lists)) := by
  cases hindex : indexOfFirst k lists with
  | none => exact .same _
  | some index => exact hwrite index hindex

theorem edited_updateList (k name : List Char) (domains : List (List Char)) (lists : List DomainList)
    (id : List Char) : Edited (view id lists) (view id (perform letters lists (.updateList k name domains))) :=
  edited_map fun _ hindex => edited_set hindex (key_first hindex)

theorem edited_toggleListActive (k : List Char) (lists : List DomainList) (id : List Char) :
    Edited (view id lists) (view id (perform letters lists (.toggleListActive k))) :=
  edited_map fun _ hindex => edited_set hindex (key_first hindex)

theorem edited_deleteList (k : List Char) (lists : List DomainList) (id : List Char) :
    Edited (view id lists) (view id (perform letters lists (.deleteList k))) := by
  refine edited_map fun index hindex => ?_
  split
  · exact edited_set hindex (key_first hindex)
  · exact edited_eraseIdx hindex

theorem Edited.length_le_one {lists others : List DomainList} (h : Edited lists others)
    (hlength : lists.length ≤ 1) : others.length ≤ 1 := by
  cases h with
  | same => exact hlength
  | removed => exact (List.tail_sublist lists).length_le.trans hlength
  | changed list _ hsome =>
      have hpos := List.length_pos_iff.mpr hsome
      rw [List.length_cons, List.length_tail]
      omega
  | added => exact Nat.le_refl 1

def DistinctIds (lists : List DomainList) : Prop := (lists.map DomainList.id).Nodup

theorem distinctIds_iff {lists : List DomainList} : DistinctIds lists ↔ ∀ id, (view id lists).length ≤ 1 :=
  nodup_iff

-- When the app's lists are brought up to date, each id of theirs that is taken is a built-in list's.
def Apart (lists : List DomainList) : Operation → Prop
  | .syncLists assets _ =>
      ∀ list ∈ lists, list.id ∈ newBuiltInIds assets → ∃ builtIn ∈ lists, builtIn.id = list.id ∧ builtIn.isBuiltIn
  | _ => True

theorem length_syncedView (lang : List Char) (asset : List Char × List (List Char)) (lists : List DomainList) :
    (syncedView letters lang asset lists).length =
      if ∃ list ∈ lists, list.isBuiltIn then lists.length else lists.length + 1 := by
  rw [syncedView]
  split
  · rename_i hnone
    rw [List.getLast?_eq_none_iff, List.filter_eq_nil_iff] at hnone
    rw [if_neg (fun ⟨list, hlist, hbuiltIn⟩ => hnone list hlist hbuiltIn), List.length_append, List.length_singleton]
  · rename_i existing hexisting
    have hmem := List.mem_filter.mp (List.mem_of_getLast? hexisting)
    have hbuiltIn : ∃ list ∈ lists, list.isBuiltIn := ⟨existing, hmem⟩
    have hpos := List.length_pos_of_mem hmem.1
    rw [if_pos hbuiltIn]
    split
    · rfl
    · rw [List.length_cons, List.length_tail]
      omega

theorem distinctIds_syncLists_iff (assets : Assets) (lang : List Char) {lists : List DomainList}
    (hlists : DistinctIds lists) :
    DistinctIds (syncLists letters assets lang lists) ↔ Apart lists (.syncLists assets lang) := by
  rw [distinctIds_iff] at hlists ⊢
  constructor
  · intro hdistinct list hlist hid
    obtain ⟨asset, hasset, hkey⟩ := List.mem_map.mp hid
    have hmem : list ∈ view asset.1 lists := mem_view.mpr ⟨hlist, hkey.symm⟩
    have hlength := hdistinct asset.1
    rw [view_syncLists_of_mem letters assets lang lists hasset, length_syncedView] at hlength
    split at hlength
    · rename_i hbuiltIn
      obtain ⟨builtIn, hbuiltIn, hflag⟩ := hbuiltIn
      have hother := mem_view.mp hbuiltIn
      exact ⟨builtIn, hother.1, hother.2.trans hkey, hflag⟩
    · have hpos := List.length_pos_of_mem hmem
      omega
  · intro hapart id
    by_cases hid : id ∈ newBuiltInIds assets
    · obtain ⟨asset, hasset, rfl⟩ := List.mem_map.mp hid
      rw [view_syncLists_of_mem letters assets lang lists hasset, length_syncedView]
      split
      · exact hlists asset.1
      · rename_i hnone
        cases hview : view asset.1 lists with
        | nil => exact Nat.le_refl 1
        | cons list others =>
            have hmem := mem_view.mp (hview ▸ List.mem_cons_self : list ∈ view asset.1 lists)
            obtain ⟨builtIn, hbuiltIn, hsame, hflag⟩ := hapart list hmem.1 (by rwa [hmem.2])
            exact absurd ⟨builtIn, mem_view.mpr ⟨hbuiltIn, hsame.trans hmem.2⟩, hflag⟩ hnone
    · rw [view_syncLists_of_notMem letters assets lang lists hid]
      exact (List.length_filter_le _ _).trans (hlists id)

theorem distinctIds_nil : DistinctIds [] := List.nodup_nil

theorem distinctIds_perform_iff {lists : List DomainList} (hlists : DistinctIds lists) (operation : Operation) :
    DistinctIds (perform letters lists operation) ↔ Apart lists operation := by
  have hedited {lists' : List DomainList} (h : ∀ id, Edited (view id lists) (view id lists')) : DistinctIds lists' :=
    distinctIds_iff.mpr fun id => (h id).length_le_one (distinctIds_iff.mp hlists id)
  cases operation with
  | syncLists assets lang => exact distinctIds_syncLists_iff assets lang hlists
  | addList name domains => exact iff_of_true (hedited (edited_addList name domains lists)) trivial
  | updateList id name domains => exact iff_of_true (hedited (edited_updateList id name domains lists)) trivial
  | toggleListActive id => exact iff_of_true (hedited (edited_toggleListActive id lists)) trivial
  | deleteList id => exact iff_of_true (hedited (edited_deleteList id lists)) trivial
  | resetLists assets lang =>
      refine iff_of_true ?_ trivial
      exact (distinctIds_syncLists_iff assets lang distinctIds_nil).mpr fun list hlist => nomatch hlist

-- The stored lists always have distinct ids in exactly the runs in which no list of the user has an
-- id of the app's lists when these are brought up to date without a built-in list of that id.
theorem distinctIds_always_iff (letters : Letters) (operations : List Operation) :
    Always (step letters) DistinctIds [] operations ↔ Allowed (step letters) Apart [] operations := by
  refine always_iff_allowed DistinctIds Apart ?_ ?_ distinctIds_nil
  · intro lists operation lists' hlists hstep
    obtain rfl := Option.some.inj hstep
    exact distinctIds_perform_iff hlists operation
  · intro lists operation _ hnone
    exact absurd hnone (Option.some_ne_none _)

-- Letters of ASCII, as the platform changes them.
def asciiLetters : Letters := { lowercase := List.map Char.toLower, uppercase := fun c => [c.toUpper] }

def youtubeAsset : List Char × List (List Char) :=
  ("proxytest_youtube.sites".toList, ["youtube.com".toList, "ytimg.com".toList])

def discordAsset : List Char × List (List Char) := ("proxytest_discord.sites".toList, ["discord.gg".toList])

-- A version of the app without a list for Discord, and one with it.
def oldAssets : Assets := ⟨[youtubeAsset], by decide⟩

def newAssets : Assets := ⟨[youtubeAsset, discordAsset], by decide⟩

def discordOfUser : List Operation :=
  [.syncLists oldAssets "en".toList, .addList "Discord".toList ["discord.com".toList]]

-- A list of the user that the next version of the app has too.
theorem not_distinctIds_after_update :
    ¬∀ operations, Always (step asciiLetters) DistinctIds [] operations := by
  intro h
  have hlists := h (discordOfUser ++ [.syncLists newAssets "en".toList])
  have hafter := (((hlists.2 _ rfl).2 _ rfl).2 _ rfl)
  have hids : ¬DistinctIds (perform asciiLetters (perform asciiLetters (perform asciiLetters []
      (.syncLists oldAssets "en".toList)) (.addList "Discord".toList ["discord.com".toList]))
      (.syncLists newAssets "en".toList)) := by
    rw [DistinctIds]
    decide
  exact hids hafter

end DomainListUtils

end ToInet.Byedpi
