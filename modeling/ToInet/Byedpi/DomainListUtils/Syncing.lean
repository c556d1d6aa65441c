import ToInet.Byedpi.DomainListUtils.Theorems

-- What bringing the app's lists up to date leaves as it is.
namespace ToInet.Byedpi

open ToInet.Lib ToInet.Lib.KeyedList

namespace DomainListUtils

variable {letters : Letters}

-- A built-in list that the user has not touched.
def Untouched (list : DomainList) : Prop :=
  list.isBuiltIn = true ∧ list.isModified = false ∧ list.isDeleted = false

-- The lists of one id: of two, the second is a built-in one, and no operation reaches it.
inductive Paired : List DomainList → Prop
  | none : Paired []
  | single (list) : Paired [list]
  | pair (list) {builtIn} (hbuiltIn : Untouched builtIn) : Paired [list, builtIn]

theorem Edited.paired {lists others : List DomainList} (h : Edited lists others) (hlists : Paired lists) :
    Paired others := by
  cases h with
  | same => exact hlists
  | removed =>
      cases hlists with
      | none => exact .none
      | single => exact .none
      | pair _ hbuiltIn => exact .single _
  | changed list _ hsome =>
      cases hlists with
      | none => exact absurd rfl hsome
      | single => exact .single list
      | pair _ hbuiltIn => exact .pair list hbuiltIn
  | added list => exact .single list

theorem untouched_newBuiltIn (lang : List Char) (asset : List Char × List (List Char)) :
    Untouched (newBuiltIn letters lang asset) :=
  ⟨rfl, rfl, rfl⟩

theorem Untouched.not_marked {list : DomainList} (h : Untouched list) :
    ¬(list.isDeleted = true ∨ list.isModified = true) := by
  simp [h.2.1, h.2.2]

section

variable (letters) (lang : List Char) (asset : List Char × List (List Char))

theorem syncedView_of_no_builtIn {lists : List DomainList} (h : ∀ list ∈ lists, list.isBuiltIn = false) :
    syncedView letters lang asset lists = lists ++ [newBuiltIn letters lang asset] := by
  have hnone : lists.filter (fun list => list.isBuiltIn) = [] := by
    rw [List.filter_eq_nil_iff]
    exact fun list hlist => by simp [h list hlist]
  rw [syncedView, hnone]
  rfl

-- The built-in list that stands last is the one that is looked up.
theorem syncedView_of_last (lists : List DomainList) {existing : DomainList} (h : existing.isBuiltIn = true) :
    syncedView letters lang asset (lists ++ [existing]) =
      if existing.isDeleted ∨ existing.isModified then lists ++ [existing]
      else { existing with domains := asset.2 } :: (lists ++ [existing]).tail := by
  have hlast : (lists ++ [existing]).filter (fun list => list.isBuiltIn) =
      lists.filter (fun list => list.isBuiltIn) ++ [existing] := by
    rw [List.filter_append, List.filter_singleton, h]
    rfl
  rw [syncedView, hlast, List.getLast?_concat]

theorem syncedView_user {list : DomainList} (h : list.isBuiltIn = false) :
    syncedView letters lang asset [list] = [list, newBuiltIn letters lang asset] :=
  syncedView_of_no_builtIn letters lang asset (by simpa using h)

theorem syncedView_marked {builtIn : DomainList} (hbuiltIn : builtIn.isBuiltIn = true)
    (hmarked : builtIn.isDeleted = true ∨ builtIn.isModified = true) :
    syncedView letters lang asset [builtIn] = [builtIn] := by
  have hlast := syncedView_of_last letters lang asset [] hbuiltIn
  rwa [if_pos hmarked] at hlast

theorem syncedView_untouched {builtIn : DomainList} (h : Untouched builtIn) :
    syncedView letters lang asset [builtIn] = [{ builtIn with domains := asset.2 }] := by
  have hlast := syncedView_of_last letters lang asset [] h.1
  rwa [if_neg h.not_marked] at hlast

-- Of two lists the first is overwritten with the second, whatever it is.
theorem syncedView_pair (list : DomainList) {builtIn : DomainList} (h : Untouched builtIn) :
    syncedView letters lang asset [list, builtIn] = [{ builtIn with domains := asset.2 }, builtIn] := by
  have hlast := syncedView_of_last letters lang asset [list] h.1
  rwa [if_neg h.not_marked] at hlast

end

-- The four kinds of lists that one id can have.
theorem Paired.cases {lists : List DomainList} (h : Paired lists) :
    lists = [] ∨ (∃ list, lists = [list] ∧ list.isBuiltIn = false) ∨
      (∃ list, lists = [list] ∧ list.isBuiltIn = true ∧ (list.isDeleted = true ∨ list.isModified = true)) ∨
      (∃ list, lists = [list] ∧ Untouched list) ∨
      ∃ list builtIn, lists = [list, builtIn] ∧ Untouched builtIn := by
  cases h with
  | none => exact .inl rfl
  | pair list hbuiltIn => exact .inr (.inr (.inr (.inr ⟨list, _, rfl, hbuiltIn⟩)))
  | single list =>
      cases hbuiltIn : list.isBuiltIn with
      | false => exact .inr (.inl ⟨list, rfl, hbuiltIn⟩)
      | true =>
          by_cases hmarked : list.isDeleted = true ∨ list.isModified = true
          · exact .inr (.inr (.inl ⟨list, rfl, hbuiltIn, hmarked⟩))
          · obtain ⟨hdeleted, hmodified⟩ := not_or.mp hmarked
            exact .inr (.inr (.inr (.inl ⟨list, rfl, hbuiltIn, eq_false_of_ne_true hmodified,
              eq_false_of_ne_true hdeleted⟩)))

theorem Untouched.with_domains {list : DomainList} (h : Untouched list) (domains : List (List Char)) :
    Untouched { list with domains } := h

theorem Paired.syncedView {lists : List DomainList} (h : Paired lists) (lang : List Char)
    (asset : List Char × List (List Char)) : Paired (syncedView letters lang asset lists) := by
  rcases h.cases with rfl | ⟨list, rfl, huser⟩ | ⟨list, rfl, hbuiltIn, hmarked⟩ | ⟨list, rfl, hlist⟩ |
    ⟨list, builtIn, rfl, hbuiltIn⟩
  · exact .single _
  · rw [syncedView_user letters lang asset huser]
    exact .pair list (untouched_newBuiltIn lang asset)
  · rw [syncedView_marked letters lang asset hbuiltIn hmarked]
    exact .single list
  · rw [syncedView_untouched letters lang asset hlist]
    exact .single _
  · rw [syncedView_pair letters lang asset list hbuiltIn]
    exact .pair _ hbuiltIn

theorem Paired.filter {lists : List DomainList} (h : Paired lists) :
    Paired (lists.filter fun list => !list.isBuiltIn) := by
  cases h with
  | none => exact .none
  | single list =>
      cases hlist : list.isBuiltIn with
      | false => simpa [hlist] using Paired.single list
      | true => simpa [hlist] using Paired.none
  | pair list hbuiltIn =>
      cases hlist : list.isBuiltIn with
      | false => simpa [hlist, hbuiltIn.1] using Paired.single list
      | true => simpa [hlist, hbuiltIn.1] using Paired.none

theorem paired_nil (id : List Char) : Paired (view id []) := .none

theorem paired_syncLists {lists : List DomainList} (h : ∀ id, Paired (view id lists)) (assets : Assets)
    (lang id : List Char) : Paired (view id (syncLists letters assets lang lists)) := by
  by_cases hid : id ∈ newBuiltInIds assets
  · obtain ⟨asset, hasset, rfl⟩ := List.mem_map.mp hid
    rw [view_syncLists_of_mem letters assets lang lists hasset]
    exact (h asset.1).syncedView lang asset
  · rw [view_syncLists_of_notMem letters assets lang lists hid]
    exact (h id).filter

-- Every operation keeps the lists of each id paired.
theorem paired_perform {lists : List DomainList} (h : ∀ id, Paired (view id lists)) (operation : Operation)
    (id : List Char) : Paired (view id (perform letters lists operation)) := by
  cases operation with
  | syncLists assets lang => exact paired_syncLists h assets lang id
  | addList name domains => exact (edited_addList name domains lists id).paired (h id)
  | updateList k name domains => exact (edited_updateList k name domains lists id).paired (h id)
  | toggleListActive k => exact (edited_toggleListActive k lists id).paired (h id)
  | deleteList k => exact (edited_deleteList k lists id).paired (h id)
  | resetLists assets lang => exact paired_syncLists paired_nil assets lang id

theorem paired_of_run {operations : List Operation} {lists : List DomainList}
    (h : run (step letters) [] operations = some lists) (id : List Char) : Paired (view id lists) := by
  refine run_induction (fun lists => ∀ id, Paired (view id lists)) ?_ paired_nil h id
  intro lists operation lists' hlists hstep
  obtain rfl := Option.some.inj hstep
  exact paired_perform hlists operation

-- Where the lists of an asset's id are what a further call makes of them, the call does nothing.
theorem syncAsset_eq_self (lang : List Char) {lists : List DomainList} {asset : List Char × List (List Char)}
    (h : syncedView letters lang asset (view asset.1 lists) = view asset.1 lists) :
    syncAsset letters lang (builtInMap lists) lists asset = lists := by
  rw [syncedView, ← builtInMap_eq] at h
  rw [syncAsset]
  cases hexisting : builtInMap lists asset.1 with
  | none =>
      rw [hexisting] at h
      have hlength := congrArg List.length h
      simp at hlength
  | some existing =>
      rw [hexisting] at h
      by_cases hmarked : existing.isDeleted ∨ existing.isModified
      · rcases hmarked with hdeleted | hmodified
        · simp [hdeleted]
        · simp [hmodified]
      · obtain ⟨hdeleted, hmodified⟩ := not_or.mp hmarked
        simp only [if_neg hmarked] at h
        simp only [if_neg hdeleted, if_neg hmodified]
        cases hindex : indexOfFirst asset.1 lists with
        | none => rfl
        | some index =>
            rw [view, ofKey_first hindex] at h
            rw [(List.cons.inj h).1]
            exact List.set_getElem_self _

theorem syncLists_eq_self (lang : List Char) {assets : Assets} {lists : List DomainList}
    (h : ∀ asset ∈ assetLists assets,
      syncedView letters lang asset (view asset.1 lists) = view asset.1 lists)
    (hbuiltIn : ∀ list ∈ lists, list.isBuiltIn = true → list.id ∈ newBuiltInIds assets) :
    syncLists letters assets lang lists = lists := by
  have hfold (others : List (List Char × List (List Char))) (hothers : ∀ asset ∈ others, asset ∈ assetLists assets) :
      others.foldl (syncAsset letters lang (builtInMap lists)) lists = lists := by
    induction others with
    | nil => rfl
    | cons asset others ih =>
        rw [List.foldl_cons, syncAsset_eq_self lang (h asset (hothers asset List.mem_cons_self))]
        exact ih fun other hother => hothers other (List.mem_cons_of_mem _ hother)
  rw [syncLists, hfold _ fun _ hasset => hasset, List.filter_eq_self]
  intro list hlist
  cases hflag : list.isBuiltIn with
  | false => rfl
  | true => simpa [hflag] using hbuiltIn list hlist hflag

-- The lists that a call has to leave as they are.
def Kept (assets : Assets) (list : DomainList) : Prop :=
  list.isBuiltIn = false ∨
    (list.isDeleted = true ∨ list.isModified = true) ∧ list.id ∈ newBuiltInIds assets

def syncs (letters : Letters) (assets : Assets) (langs : List (List Char)) (lists : List DomainList) :
    List DomainList :=
  langs.foldl (fun lists lang => syncLists letters assets lang lists) lists

-- No list of the user has an id of the app's lists, and a marked built-in list shares its id with
-- no other.
def Spared (assets : Assets) (lists : List DomainList) : Prop :=
  ∀ list ∈ lists, list.id ∈ newBuiltInIds assets → list.isBuiltIn = true ∧
    (list.isDeleted = true ∨ list.isModified = true → ∀ other ∈ lists, other.id = list.id → other = list)

-- The lists of one id that a call spares.
inductive SparedView : List DomainList → Prop
  | none : SparedView []
  | marked {list} (hbuiltIn : list.isBuiltIn = true) (hmarked : list.isDeleted = true ∨ list.isModified = true) :
      SparedView [list]
  | untouched {list} (hlist : Untouched list) : SparedView [list]
  | pair {list builtIn} (hlist : Untouched list) (hbuiltIn : Untouched builtIn) : SparedView [list, builtIn]

theorem SparedView.syncedView {lists : List DomainList} (h : SparedView lists) (lang : List Char)
    (asset : List Char × List (List Char)) : SparedView (syncedView letters lang asset lists) := by
  cases h with
  | none => exact .untouched (untouched_newBuiltIn lang asset)
  | marked hbuiltIn hmarked =>
      rw [syncedView_marked letters lang asset hbuiltIn hmarked]
      exact .marked hbuiltIn hmarked
  | untouched hlist =>
      rw [syncedView_untouched letters lang asset hlist]
      exact .untouched (hlist.with_domains asset.2)
  | pair hlist hbuiltIn =>
      rw [syncedView_pair letters lang asset _ hbuiltIn]
      exact .pair (hbuiltIn.with_domains asset.2) hbuiltIn

theorem SparedView.idempotent {lists : List DomainList} (h : SparedView lists) (lang lang' : List Char)
    (asset : List Char × List (List Char)) :
    DomainListUtils.syncedView letters lang' asset (DomainListUtils.syncedView letters lang asset lists) =
      DomainListUtils.syncedView letters lang asset lists := by
  cases h with
  | none => exact syncedView_untouched letters lang' asset (untouched_newBuiltIn lang asset)
  | marked hbuiltIn hmarked =>
      rw [syncedView_marked letters lang asset hbuiltIn hmarked,
        syncedView_marked letters lang' asset hbuiltIn hmarked]
  | untouched hlist =>
      rw [syncedView_untouched letters lang asset hlist]
      exact syncedView_untouched letters lang' asset (hlist.with_domains asset.2)
  | pair hlist hbuiltIn =>
      rw [syncedView_pair letters lang asset _ hbuiltIn, syncedView_pair letters lang' asset _ hbuiltIn]

def SparedViews (assets : Assets) (lists : List DomainList) : Prop :=
  ∀ asset ∈ assetLists assets, SparedView (view asset.1 lists)

theorem Spared.views {assets : Assets} {lists : List DomainList} (hpaired : ∀ id, Paired (view id lists))
    (h : Spared assets lists) : SparedViews assets lists := by
  intro asset hasset
  have hmem {list : DomainList} (hlist : list ∈ view asset.1 lists) :
      list.isBuiltIn = true ∧ (list.isDeleted = true ∨ list.isModified = true →
        ∀ other ∈ view asset.1 lists, other = list) := by
    have hin := mem_view.mp hlist
    have hspared := h list hin.1 (hin.2 ▸ List.mem_map_of_mem hasset)
    refine ⟨hspared.1, fun hmarked other hother => ?_⟩
    have hsame := mem_view.mp hother
    exact hspared.2 hmarked other hsame.1 (hsame.2.trans hin.2.symm)
  rcases (hpaired asset.1).cases with hview | ⟨list, hview, huser⟩ | ⟨list, hview, hbuiltIn, hmarked⟩ |
    ⟨list, hview, hlist⟩ | ⟨list, builtIn, hview, hbuiltIn⟩ <;> rw [hview] at hmem ⊢
  · exact .none
  · exact absurd (hmem List.mem_cons_self).1 (by simp [huser])
  · exact .marked hbuiltIn hmarked
  · exact .untouched hlist
  · have hlist := hmem (List.mem_cons_self (a := list) (l := [builtIn]))
    refine .pair ⟨hlist.1, ?_⟩ hbuiltIn
    by_contra hmarked
    have hsame := hlist.2 (by grind) builtIn (by simp)
    exact hmarked (hsame ▸ hbuiltIn.2)

theorem SparedViews.syncLists {assets : Assets} {lists : List DomainList} (h : SparedViews assets lists)
    (lang : List Char) : SparedViews assets (syncLists letters assets lang lists) := by
  intro asset hasset
  rw [view_syncLists_of_mem letters assets lang lists hasset]
  exact (h asset hasset).syncedView lang asset

theorem SparedView.kept {lists : List DomainList} (h : SparedView lists) (lang : List Char)
    (asset : List Char × List (List Char)) {list : DomainList} (hlist : list ∈ lists)
    (hkept : list.isBuiltIn = false ∨ list.isDeleted = true ∨ list.isModified = true) :
    list ∈ DomainListUtils.syncedView letters lang asset lists := by
  have huntouched : ¬Untouched list := fun hsame =>
    hkept.elim (fun huser => by simp [hsame.1] at huser) hsame.not_marked
  cases h with
  | none => exact absurd hlist List.not_mem_nil
  | marked hbuiltIn hmarked => rwa [syncedView_marked letters lang asset hbuiltIn hmarked]
  | untouched hone =>
      obtain rfl := List.mem_singleton.mp hlist
      exact absurd hone huntouched
  | pair hone hother =>
      rcases List.mem_pair.mp hlist with rfl | rfl
      · exact absurd hone huntouched
      · exact absurd hother huntouched

theorem SparedViews.kept {assets : Assets} {lists : List DomainList} (h : SparedViews assets lists)
    (lang : List Char) {list : DomainList} (hlist : list ∈ lists) (hkept : Kept assets list) :
    list ∈ DomainListUtils.syncLists letters assets lang lists := by
  have hmem : list ∈ view list.id (DomainListUtils.syncLists letters assets lang lists) := by
    have hview := mem_view.mpr ⟨hlist, rfl⟩
    by_cases hid : list.id ∈ newBuiltInIds assets
    · obtain ⟨asset, hasset, hkey⟩ := List.mem_map.mp hid
      rw [← hkey] at hview ⊢
      rw [view_syncLists_of_mem letters assets lang lists hasset]
      exact (h asset hasset).kept lang asset hview (hkept.imp_right And.left)
    · have huser := hkept.resolve_right fun hmarked => hid hmarked.2
      rw [view_syncLists_of_notMem letters assets lang lists hid]
      exact List.mem_filter.mpr ⟨hview, by simp [huser]⟩
  exact (mem_view.mp hmem).1

theorem SparedViews.kept_syncs {assets : Assets} {lists : List DomainList} (h : SparedViews assets lists)
    (langs : List (List Char)) {list : DomainList} (hlist : list ∈ lists) (hkept : Kept assets list) :
    list ∈ syncs letters assets langs lists := by
  induction langs generalizing lists with
  | nil => exact hlist
  | cons lang langs ih => exact ih (h.syncLists lang) (h.kept lang hlist hkept)

theorem builtIn_of_mem_syncLists {assets : Assets} {lang : List Char} {lists : List DomainList} {list : DomainList}
    (hlist : list ∈ syncLists letters assets lang lists) (hbuiltIn : list.isBuiltIn = true) :
    list.id ∈ newBuiltInIds assets := by
  have hfilter := (List.mem_filter.mp hlist).2
  simpa [hbuiltIn] using hfilter

theorem SparedViews.idempotent {assets : Assets} {lists : List DomainList} (h : SparedViews assets lists)
    (lang lang' : List Char) :
    DomainListUtils.syncLists letters assets lang' (DomainListUtils.syncLists letters assets lang lists) =
      DomainListUtils.syncLists letters assets lang lists := by
  refine syncLists_eq_self lang' (fun asset hasset => ?_) fun list => builtIn_of_mem_syncLists
  rw [view_syncLists_of_mem letters assets lang lists hasset]
  exact (h asset hasset).idempotent lang lang' asset

-- Two calls turn all lists of an asset's id into built-in ones.
theorem Paired.builtIn_of_mem_twice {lists : List DomainList} (h : Paired lists) (lang : List Char)
    (asset : List Char × List (List Char)) {list : DomainList}
    (hlist : list ∈ DomainListUtils.syncedView letters lang asset
      (DomainListUtils.syncedView letters lang asset lists)) :
    list.isBuiltIn = true := by
  have hnew : Untouched (newBuiltIn letters lang asset) := untouched_newBuiltIn lang asset
  rcases h.cases with rfl | ⟨user, rfl, huser⟩ | ⟨builtIn, rfl, hbuiltIn, hmarked⟩ | ⟨builtIn, rfl, hbuiltIn⟩ |
    ⟨first, builtIn, rfl, hbuiltIn⟩
  · have hsynced := syncedView_untouched letters lang asset hnew
    rw [show DomainListUtils.syncedView letters lang asset [] = [newBuiltIn letters lang asset] from rfl, hsynced,
      List.mem_singleton] at hlist
    exact hlist ▸ rfl
  · rw [syncedView_user letters lang asset huser, syncedView_pair letters lang asset user hnew,
      List.mem_pair] at hlist
    rcases hlist with rfl | rfl <;> rfl
  · rw [syncedView_marked letters lang asset hbuiltIn hmarked, syncedView_marked letters lang asset hbuiltIn hmarked,
      List.mem_singleton] at hlist
    exact hlist ▸ hbuiltIn
  · rw [syncedView_untouched letters lang asset hbuiltIn,
      syncedView_untouched letters lang asset (hbuiltIn.with_domains asset.2), List.mem_singleton] at hlist
    exact hlist ▸ hbuiltIn.1
  · rw [syncedView_pair letters lang asset first hbuiltIn, syncedView_pair letters lang asset _ hbuiltIn,
      List.mem_pair] at hlist
    rcases hlist with rfl | rfl <;> exact hbuiltIn.1

theorem spared_of_kept {assets : Assets} {lists : List DomainList} (hpaired : ∀ id, Paired (view id lists))
    (h : ∀ langs, ∀ list ∈ lists, Kept assets list → list ∈ syncs letters assets langs lists) :
    Spared assets lists := by
  intro list hlist hid
  obtain ⟨asset, hasset, hkey⟩ := List.mem_map.mp hid
  have hview := hpaired asset.1
  constructor
  · by_contra huser
    have htwice := h [[], []] list hlist (.inl (eq_false_of_ne_true huser))
    have hmem := mem_view.mpr ⟨htwice, hkey.symm⟩
    rw [syncs, List.foldl_cons, List.foldl_cons, List.foldl_nil, view_syncLists_of_mem letters assets _ _ hasset,
      view_syncLists_of_mem letters assets _ _ hasset] at hmem
    exact huser (hview.builtIn_of_mem_twice [] asset hmem)
  · intro hmarked other hother hsame
    have hmem := mem_view.mpr ⟨h [[]] list hlist (.inr ⟨hmarked, hid⟩), hkey.symm⟩
    have hfirst := mem_view.mpr ⟨hlist, hkey.symm⟩
    have hsecond := mem_view.mpr ⟨hother, hsame.trans hkey.symm⟩
    rw [syncs, List.foldl_cons, List.foldl_nil, view_syncLists_of_mem letters assets _ _ hasset] at hmem
    generalize view asset.1 lists = lists' at hview hmem hfirst hsecond
    cases hview with
    | none => exact absurd hfirst List.not_mem_nil
    | single => exact (List.mem_singleton.mp hsecond).trans (List.mem_singleton.mp hfirst).symm
    | pair first hbuiltIn =>
        -- What the call leaves of the two are an untouched list and a copy of it.
        rw [syncedView_pair letters [] asset first hbuiltIn, List.mem_pair] at hmem
        rcases hmem with rfl | rfl <;> exact absurd hmarked hbuiltIn.not_marked

-- From every stored state, any number of calls with one set of assets leaves the lists of the user and the
-- marked ones as they are, and a second call does nothing, exactly where those lists are spared.
theorem syncs_keep_iff (letters : Letters) (operations : List Operation) (lists : List DomainList) (assets : Assets)
    (hrun : run (step letters) [] operations = some lists) :
    ((∀ langs, ∀ list ∈ lists, Kept assets list → list ∈ syncs letters assets langs lists) ∧
      ∀ lang lang', syncLists letters assets lang' (syncLists letters assets lang lists) =
        syncLists letters assets lang lists) ↔ Spared assets lists := by
  have hpaired := paired_of_run hrun
  constructor
  · rintro ⟨hkept, _⟩
    exact spared_of_kept hpaired hkept
  · intro hspared
    have hviews := hspared.views hpaired
    exact ⟨fun langs list hlist hkept => hviews.kept_syncs langs hlist hkept, hviews.idempotent⟩

def gamesOfUser : List Operation :=
  [.syncLists oldAssets "en".toList, .addList "My games".toList ["example.org".toList]]

def gamesLists : List DomainList := ((run (step asciiLetters) [] gamesOfUser).getD [])

theorem syncs_keep_games :
    (∀ langs, ∀ list ∈ gamesLists, Kept newAssets list → list ∈ syncs asciiLetters newAssets langs gamesLists) ∧
      ∀ lang lang', syncLists asciiLetters newAssets lang' (syncLists asciiLetters newAssets lang gamesLists) =
        syncLists asciiLetters newAssets lang gamesLists := by
  have hspared : Spared newAssets gamesLists := by
    rw [Spared]
    decide
  exact (syncs_keep_iff asciiLetters gamesOfUser gamesLists newAssets rfl).mpr hspared

-- Two calls after the update of the app overwrite the list of the user.
theorem not_kept_after_update :
    ¬∀ operations lists assets, run (step asciiLetters) [] operations = some lists →
      (∀ langs, ∀ list ∈ lists, Kept assets list → list ∈ syncs asciiLetters assets langs lists) ∧
        ∀ lang lang', syncLists asciiLetters assets lang' (syncLists asciiLetters assets lang lists) =
          syncLists asciiLetters assets lang lists := by
  intro h
  let discord : DomainList :=
    { id := "discord".toList, name := "Discord".toList, domains := ["discord.com".toList] }
  have hkept := (h discordOfUser _ newAssets rfl).1 ["en".toList, "en".toList] discord (by decide) (.inl rfl)
  exact absurd hkept (by decide)

end DomainListUtils

end ToInet.Byedpi
