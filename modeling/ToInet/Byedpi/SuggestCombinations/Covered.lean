import Mathlib.Data.List.GetD
import ToInet.Byedpi.ByeDpiRouter.Theorems
import ToInet.Byedpi.SuggestCombinations
import ToInet.Lib.MachineInt

-- Which sites a combination that is marked as fully successful really has a command for.
namespace ToInet.Byedpi

open ToInet.Lib

-- What the list of strategies gets for a combination.
def combinedResult (toString : LinkedMap String String → String) (sites : List String) (reqs : Int)
    (combo : LinkedMap String String) : StrategyResult :=
  { command := toString combo
    successCount := toInt32 (sites.length * reqs)
    totalRequests := toInt32 (sites.length * reqs)
    siteResults := sites.map fun domain => ⟨domain, reqs, reqs⟩ }

-- All requests for the site went through.
def StrategyResult.Passes (strat : StrategyResult) (domain : String) : Prop :=
  ∃ result ∈ strat.siteResults,
    result.site = domain ∧ result.successCount = result.totalCount ∧ 0 < result.totalCount

instance (strat : StrategyResult) (domain : String) : Decidable (strat.Passes domain) :=
  inferInstanceAs (Decidable (∃ result ∈ strat.siteResults, _))

def PassedBy (completeStrategies : List StrategyResult) (domain cmd : String) : Prop :=
  ∃ strat ∈ completeStrategies, strat.command = cmd ∧ strat.Passes domain

-- The combination has a command for the site that passed all requests, or the fallback.
def Covers (completeStrategies : List StrategyResult) (torFallback : Bool) (combo : LinkedMap String String)
    (domain : String) : Prop :=
  ∃ cmd, combo.get? domain = some cmd ∧
    (PassedBy completeStrategies domain cmd ∨ torFallback = true ∧ cmd = "TOR")

theorem mem_workingStrats {completeStrategies : List StrategyResult} {domain cmd : String} :
    cmd ∈ workingStrats completeStrategies domain ↔ PassedBy completeStrategies domain cmd := by
  simp only [workingStrats, PassedBy, StrategyResult.Passes, List.mem_map, List.mem_filter, List.any_eq_true,
    decide_eq_true_eq]
  exact exists_congr fun strat => ⟨fun ⟨⟨hmem, hany⟩, hcmd⟩ => ⟨hmem, hcmd, hany⟩,
    fun ⟨hmem, hcmd, hany⟩ => ⟨⟨hmem, hany⟩, hcmd⟩⟩

-- The commands that pass all requests for a site, in the order of the strategies.
def passing (completeStrategies : List StrategyResult) (domain : String) : List String :=
  (completeStrategies.filter fun strat => strat.Passes domain).map StrategyResult.command

theorem workingStrats_eq_passing (completeStrategies : List StrategyResult) (domain : String) :
    workingStrats completeStrategies domain = passing completeStrategies domain := by
  rw [workingStrats, passing]
  congr 1
  refine List.filter_congr fun strat _ => ?_
  rw [Bool.eq_iff_iff, List.any_eq_true, decide_eq_true_iff]
  simp only [decide_eq_true_eq, StrategyResult.Passes]

theorem passing_eq_nil_iff {completeStrategies : List StrategyResult} {domain : String} :
    passing completeStrategies domain = [] ↔ ∀ cmd, ¬PassedBy completeStrategies domain cmd := by
  rw [← workingStrats_eq_passing, List.eq_nil_iff_forall_not_mem]
  simp only [mem_workingStrats]

variable {completeStrategies strategies : List StrategyResult} {sites : List String} {torFallback : Bool}
  {toString : LinkedMap String String → String}

-- The commands that a site of the list gets.
def offered (completeStrategies : List StrategyResult) (torFallback : Bool) (domain : String) :
    Option (List String) :=
  let cmds := workingStrats completeStrategies domain
  if cmds ≠ [] then some cmds else if torFallback then some ["TOR"] else none

theorem offered_eq_none_iff {domain : String} :
    offered completeStrategies torFallback domain = none ↔
      workingStrats completeStrategies domain = [] ∧ torFallback = false := by
  unfold offered
  by_cases hcmds : workingStrats completeStrategies domain = [] <;> cases torFallback <;> simp [hcmds]

theorem offered_ne_none_iff {domain : String} :
    offered completeStrategies torFallback domain ≠ none ↔
      torFallback = true ∨ ∃ cmd, PassedBy completeStrategies domain cmd := by
  rw [ne_eq, offered_eq_none_iff, not_and_or, Bool.not_eq_false, or_comm, List.eq_nil_iff_forall_not_mem]
  simp only [mem_workingStrats, not_forall, not_not]

theorem offered_covers {domain cmd : String} {cmds : List String}
    (hoffered : offered completeStrategies torFallback domain = some cmds) (hcmd : cmd ∈ cmds) :
    PassedBy completeStrategies domain cmd ∨ torFallback = true ∧ cmd = "TOR" := by
  simp only [offered] at hoffered
  split at hoffered
  · rw [← Option.some.inj hoffered] at hcmd
    exact .inl (mem_workingStrats.mp hcmd)
  · split at hoffered
    · rename_i htor
      rw [← Option.some.inj hoffered, List.mem_singleton] at hcmd
      exact .inr ⟨htor, hcmd⟩
    · cases hoffered

theorem offered_ne_nil {domain : String} {cmds : List String}
    (hoffered : offered completeStrategies torFallback domain = some cmds) : cmds ≠ [] := by
  simp only [offered] at hoffered
  split at hoffered
  · rename_i hne
    rw [← Option.some.inj hoffered]
    exact hne
  · split at hoffered
    · rw [← Option.some.inj hoffered]
      exact List.cons_ne_nil _ _
    · cases hoffered

-- One site of the list.
theorem putOffered_get? (map : LinkedMap String (List String)) (domain other : String) :
    (let cmds := workingStrats completeStrategies domain
     if cmds ≠ [] then map.put domain cmds else if torFallback then map.put domain ["TOR"] else map).get? other =
      if other = domain then (offered completeStrategies torFallback domain).or (map.get? other)
      else map.get? other := by
  simp only [offered]
  split
  · rw [LinkedMap.get?_put, Option.some_or]
  · split
    · rw [LinkedMap.get?_put, Option.some_or]
    · rw [Option.none_or, ite_self]

theorem foldl_putOffered_get? (map : LinkedMap String (List String)) (sites : List String) (other : String) :
    (sites.foldl (fun map domain =>
      let cmds := workingStrats completeStrategies domain
      if cmds ≠ [] then map.put domain cmds else if torFallback then map.put domain ["TOR"] else map) map).get?
        other =
      if other ∈ sites then (offered completeStrategies torFallback other).or (map.get? other)
      else map.get? other := by
  induction sites generalizing map with
  | nil => rfl
  | cons domain sites ih =>
      rw [List.foldl_cons, ih, putOffered_get?]
      by_cases hsame : other = domain
      · subst hsame
        rw [if_pos rfl, if_pos List.mem_cons_self]
        cases offered completeStrategies torFallback other <;> simp
      · simp only [List.mem_cons, hsame, if_false, false_or]

theorem domainToWorkingCmds_get? (completeStrategies : List StrategyResult) (torFallback : Bool)
    (sites : List String) (domain : String) :
    (domainToWorkingCmds completeStrategies sites torFallback).get? domain =
      if domain ∈ sites then offered completeStrategies torFallback domain else none := by
  rw [domainToWorkingCmds, foldl_putOffered_get?]
  simp [LinkedMap.empty, LinkedMap.get?]

-- The command that the i-th combination takes.
def pick (i : Nat) (cmds : List String) : String := cmds.getD (if i < cmds.length then i else 0) ""

theorem pick_mem {i : Nat} {cmds : List String} (hne : cmds ≠ []) : pick i cmds ∈ cmds := by
  have hlength := List.length_pos_iff.mpr hne
  unfold pick
  split
  · rename_i hi
    rw [List.getD_eq_getElem cmds "" hi]
    exact List.getElem_mem hi
  · rw [List.getD_eq_getElem cmds "" hlength]
    exact List.getElem_mem hlength

theorem currentCombo_entries (working : LinkedMap String (List String)) (i : Nat) :
    (currentCombo working i).entries = working.entries.map fun entry => (entry.1, pick i entry.2) := by
  have hfold : (currentCombo working i) =
      (working.entries.map fun entry => (entry.1, pick i entry.2)).foldl
        (fun map entry => map.put entry.1 entry.2) LinkedMap.empty := by
    rw [List.foldl_map]
    rfl
  rw [hfold, LinkedMap.foldl_put_entries]
  · rfl
  · rw [List.map_map]
    exact working.nodup

theorem currentCombo_get? (working : LinkedMap String (List String)) (i : Nat) (domain : String) :
    (currentCombo working i).get? domain = (working.get? domain).map (pick i) :=
  LinkedMap.get?_of_map_entries (currentCombo_entries working i) domain

theorem mem_addCombo {combos : List (LinkedMap String String)} {combo other : LinkedMap String String}
    (h : combo ∈ addCombo toString strategies combos other) : combo ∈ combos ∨ combo = other := by
  unfold addCombo at h
  split at h
  · exact .inl h
  · exact (List.mem_append.mp h).imp_right List.mem_singleton.mp

theorem mem_foldl_addCombo {added combos : List (LinkedMap String String)} {combo : LinkedMap String String}
    (h : combo ∈ combos.foldl (addCombo toString strategies) added) : combo ∈ added ∨ combo ∈ combos := by
  induction combos generalizing added with
  | nil => exact .inl h
  | cons other combos ih =>
      obtain hadded | hrest := ih h
      · obtain hmem | rfl := mem_addCombo hadded
        · exact .inl hmem
        · exact .inr List.mem_cons_self
      · exact .inr (List.mem_cons_of_mem _ hrest)

theorem addCombo_ne_nil {added : List (LinkedMap String String)} {combo : LinkedMap String String}
    (hne : added ≠ []) : addCombo toString strategies added combo ≠ [] := by
  unfold addCombo
  split
  · exact hne
  · exact List.append_ne_nil_of_left_ne_nil hne _

theorem foldl_addCombo_ne_nil {added : List (LinkedMap String String)} (combos : List (LinkedMap String String))
    (hne : added ≠ []) : combos.foldl (addCombo toString strategies) added ≠ [] := by
  induction combos generalizing added with
  | nil => exact hne
  | cons combo combos ih => exact ih (addCombo_ne_nil hne)

theorem foldl_addCombo_eq_nil_iff (combos : List (LinkedMap String String)) :
    combos.foldl (addCombo toString strategies) [] = [] ↔
      ∀ combo ∈ combos, toString combo ∈ strategies.map StrategyResult.command := by
  induction combos with
  | nil => simp
  | cons combo combos ih =>
      rw [List.foldl_cons, List.forall_mem_cons, addCombo, List.map_nil, List.append_nil, List.nil_append]
      split
      · rename_i hmem
        rw [ih, and_iff_right hmem]
      · rename_i hnew
        exact iff_of_false (foldl_addCombo_ne_nil combos (List.cons_ne_nil _ _)) fun hall => hnew hall.1

-- Every added combination has for a site of the list one of the commands that the site gets.
theorem suggestCombinations_get? {combo : LinkedMap String String} {domain : String}
    (hcombo : combo ∈ suggestCombinations toString strategies completeStrategies sites torFallback)
    (hdomain : domain ∈ sites) :
    ∃ i, combo.get? domain = (offered completeStrategies torFallback domain).map (pick i) := by
  unfold suggestCombinations at hcombo
  split at hcombo
  · cases hcombo
  split at hcombo
  · cases hcombo
  simp only at hcombo
  split at hcombo
  · cases hcombo
  rw [← List.foldl_map] at hcombo
  obtain hnil | hmem := mem_foldl_addCombo hcombo
  · cases hnil
  · obtain ⟨i, _, rfl⟩ := List.mem_map.mp hmem
    refine ⟨i, ?_⟩
    rw [currentCombo_get?, domainToWorkingCmds_get?, if_pos hdomain]

-- The sites of the list that some strategy passes, each once.
def passedSites (completeStrategies : List StrategyResult) (sites : List String) : List String :=
  (sites.filter fun domain => passing completeStrategies domain ≠ []).eraseDups

-- Every passed site with its i-th command, or its first one where it has less.
def combination (completeStrategies : List StrategyResult) (sites : List String) (i : Nat) : List (String × String) :=
  (passedSites completeStrategies sites).map fun domain => (domain, pick i (passing completeStrategies domain))

theorem domainToWorkingCmds_entries (completeStrategies : List StrategyResult) (sites : List String) :
    (domainToWorkingCmds completeStrategies sites false).entries =
      (passedSites completeStrategies sites).map fun domain => (domain, passing completeStrategies domain) := by
  rw [passedSites, ← LinkedMap.foldl_put_keys, List.foldl_filter, domainToWorkingCmds]
  simp [workingStrats_eq_passing]

theorem domainToWorkingCmds_eq_nil_iff : (domainToWorkingCmds completeStrategies sites false).entries = [] ↔
    passedSites completeStrategies sites = [] := by
  rw [domainToWorkingCmds_entries, List.map_eq_nil_iff]

theorem passedSites_eq_nil_iff : passedSites completeStrategies sites = [] ↔
    ∀ domain ∈ sites, ∀ cmd, ¬PassedBy completeStrategies domain cmd := by
  simp [passedSites, List.eq_nil_iff_forall_not_mem, List.mem_eraseDups, ← passing_eq_nil_iff]

theorem currentCombo_domainToWorkingCmds (i : Nat) :
    (currentCombo (domainToWorkingCmds completeStrategies sites false) i).entries =
      combination completeStrategies sites i := by
  rw [currentCombo_entries, domainToWorkingCmds_entries, List.map_map]
  rfl

-- Without the fallback, the test leaves nothing to combine, or the list has all three combinations already.
def NothingAdded (toString : LinkedMap String String → String) (strategies completeStrategies : List StrategyResult)
    (sites : List String) : Prop :=
  completeStrategies = [] ∨
  (∃ strat ∈ completeStrategies, strat.successCount = strat.totalRequests ∧ 0 < strat.totalRequests) ∨
  (∀ domain ∈ sites, ∀ cmd, ¬PassedBy completeStrategies domain cmd) ∨
  ∀ i < maxCombos, ∀ combo : LinkedMap String String, combo.entries = combination completeStrategies sites i →
    toString combo ∈ strategies.map StrategyResult.command

theorem suggestCombinations_eq_nil_iff (hsites : sites ≠ []) :
    suggestCombinations toString strategies completeStrategies sites false = [] ↔
      NothingAdded toString strategies completeStrategies sites := by
  unfold suggestCombinations NothingAdded
  split
  · rename_i hempty
    exact iff_of_true rfl (.inl (hempty.resolve_right hsites))
  rename_i hne
  rw [not_or] at hne
  split
  · rename_i hperfect
    refine iff_of_true rfl (.inr (.inl ?_))
    simpa using hperfect
  rename_i hperfect
  have himperfect : ¬∃ strat ∈ completeStrategies,
      strat.successCount = strat.totalRequests ∧ 0 < strat.totalRequests := by
    simpa using hperfect
  simp only
  rw [← passedSites_eq_nil_iff, ← domainToWorkingCmds_eq_nil_iff]
  split
  · rename_i hpassed
    exact iff_of_true rfl (.inr (.inr (.inl hpassed)))
  · rename_i hpassed
    rw [← List.foldl_map, foldl_addCombo_eq_nil_iff, or_iff_right hne.1, or_iff_right himperfect,
      or_iff_right hpassed, List.forall_mem_map]
    simp only [List.mem_range]
    refine forall₂_congr fun i _ => ⟨fun hmem combo hcombo => ?_, fun hall => ?_⟩
    · rwa [LinkedMap.ext (hcombo.trans (currentCombo_domainToWorkingCmds i).symm)]
    · exact hall _ (currentCombo_domainToWorkingCmds i)

-- The result says that every site passed all requests.
def MarkedForAll (sites : List String) (result : StrategyResult) : Prop :=
  ∀ domain ∈ sites, result.Passes domain

theorem markedForAll_combinedResult (hsites : sites ≠ []) (reqs : Int) (combo : LinkedMap String String) :
    MarkedForAll sites (combinedResult toString sites reqs combo) ↔ 0 < reqs := by
  unfold MarkedForAll StrategyResult.Passes combinedResult
  constructor
  · intro hmarked
    obtain ⟨domain, hdomain⟩ := List.exists_mem_of_ne_nil sites hsites
    obtain ⟨result, hresult, _, _, hpos⟩ := hmarked domain hdomain
    obtain ⟨_, _, rfl⟩ := List.mem_map.mp hresult
    exact hpos
  · exact fun hpos domain hdomain => ⟨_, List.mem_map.mpr ⟨domain, hdomain, rfl⟩, rfl, rfl, hpos⟩

-- An added combination covers a site exactly when there was something to give it.
theorem covers_iff {combo : LinkedMap String String} {domain : String}
    (hcombo : combo ∈ suggestCombinations toString strategies completeStrategies sites torFallback)
    (hdomain : domain ∈ sites) :
    Covers completeStrategies torFallback combo domain ↔ offered completeStrategies torFallback domain ≠ none := by
  obtain ⟨i, hget⟩ := suggestCombinations_get? hcombo hdomain
  unfold Covers
  rw [hget]
  cases hoffered : offered completeStrategies torFallback domain with
  | none => simp
  | some cmds =>
      refine iff_of_true ⟨pick i cmds, rfl, offered_covers hoffered (pick_mem (offered_ne_nil hoffered))⟩ ?_
      exact Option.some_ne_none cmds

-- What is marked for all sites has a command for all of them exactly when the marks are not positive,
-- the fallback is on, every site is passed by some strategy, or nothing is added.
theorem suggestCombinations_covers_iff (toString : LinkedMap String String → String)
    (strategies completeStrategies : List StrategyResult) (sites : List String) (torFallback : Bool) (reqs : Int) :
    (∀ combo ∈ suggestCombinations toString strategies completeStrategies sites torFallback,
        MarkedForAll sites (combinedResult toString sites reqs combo) →
          ∀ domain ∈ sites, Covers completeStrategies torFallback combo domain) ↔
      reqs ≤ 0 ∨ torFallback = true ∨ (∀ domain ∈ sites, ∃ cmd, PassedBy completeStrategies domain cmd) ∨
        NothingAdded toString strategies completeStrategies sites := by
  by_cases hsites : sites = []
  · subst hsites
    exact iff_of_true (fun combo _ _ domain hdomain => nomatch hdomain)
      (.inr (.inr (.inl fun domain hdomain => nomatch hdomain)))
  by_cases htor : torFallback = true
  · exact iff_of_true (fun combo hcombo _ domain hdomain =>
      (covers_iff hcombo hdomain).mpr (offered_ne_none_iff.mpr (.inl htor))) (.inr (.inl htor))
  obtain rfl := Bool.eq_false_of_not_eq_true htor
  rw [← suggestCombinations_eq_nil_iff hsites]
  constructor
  · intro hcovers
    by_cases hreqs : 0 < reqs
    · refine .inr (.inr ?_)
      by_contra hnot
      push Not at hnot
      obtain ⟨⟨domain, hdomain, hpassed⟩, hadded⟩ := hnot
      obtain ⟨combo, hcombo⟩ := List.exists_mem_of_ne_nil _ hadded
      have hcover := hcovers combo hcombo ((markedForAll_combinedResult hsites reqs combo).mpr hreqs) domain hdomain
      rw [covers_iff hcombo hdomain, offered_ne_none_iff, or_iff_right htor] at hcover
      obtain ⟨cmd, hcmd⟩ := hcover
      exact hpassed cmd hcmd
    · exact .inl (by omega)
  · intro hcondition combo hcombo hmarked domain hdomain
    have hreqs := (markedForAll_combinedResult hsites reqs combo).mp hmarked
    rw [covers_iff hcombo hdomain, offered_ne_none_iff]
    obtain hnot | htor | hall | hnil := hcondition
    · omega
    · exact .inl htor
    · exact .inr (hall domain hdomain)
    · rw [hnil] at hcombo
      cases hcombo

-- One strategy passes one of two sites, and nothing passes the other.
def half : List StrategyResult :=
  [{ command := "-d1", successCount := 1, totalRequests := 2
     siteResults := [⟨"a.org", 1, 1⟩, ⟨"b.org", 0, 1⟩] }]

theorem suggestCombinations_not_covers :
    ¬∀ combo ∈ suggestCombinations ByeDpiRouter.objectText half half ["a.org", "b.org"] false,
      MarkedForAll ["a.org", "b.org"] (combinedResult ByeDpiRouter.objectText ["a.org", "b.org"] 1 combo) →
        ∀ domain ∈ ["a.org", "b.org"], Covers half false combo domain := by
  intro hcovers
  obtain ⟨combo, hcombo, hget⟩ : ∃ combo ∈ suggestCombinations ByeDpiRouter.objectText half half
      ["a.org", "b.org"] false, combo.get? "b.org" = none := by decide
  have hmarked : MarkedForAll ["a.org", "b.org"]
      (combinedResult ByeDpiRouter.objectText ["a.org", "b.org"] 1 combo) :=
    (markedForAll_combinedResult (List.cons_ne_nil _ _) 1 combo).mpr Int.one_pos
  obtain ⟨cmd, hcmd, _⟩ := hcovers combo hcombo hmarked "b.org" (by decide)
  rw [hget] at hcmd
  cases hcmd

end ToInet.Byedpi
