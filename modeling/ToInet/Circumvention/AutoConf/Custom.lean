import ToInet.Circumvention.AutoConf.Closed
import ToInet.Circumvention.AutoConf.Extract
import ToInet.Circumvention.SmartConnect
import ToInet.Circumvention.Transport.BridgesList

-- The bridges that come with CUSTOM, from do and in what SmartConnect makes of them.
namespace ToInet.Circumvention.AutoConf

open ToInet.Lib MoatApi BuiltInBridges

-- A built-in DNSTT setting without a bridge, which stands for CUSTOM all the same.
def Bare (setting : Setting) : Prop :=
  setting.bridge.type = "dnstt" ∧ isBuiltin setting ∧ ¬carries setting

def firstUsable (settings : List Setting) : Option Setting := settings.find? fun setting => (usable setting).isSome

section

variable (calls : Calls) (country : Option String) (cannotConnectWithoutPt : Bool)

def defaultSettings : List Setting :=
  match calls.defaults { country := none } with
  | .ok response => response.settings.getD []
  | .error _ => []

-- The setting that decides, and all those whose bridges come with it.
def decided : Option (Setting × List Setting) :=
  if safe calls country cannotConnectWithoutPt then none
  else
    match firstUsable (settings2 calls country ++ settings calls country) with
    | some setting => some (setting, settings calls country ++ settings2 calls country)
    | none => (firstUsable (defaultSettings calls)).map fun setting => (setting, defaultSettings calls)

-- What none of the calls in front of the answers breaks off.
def Runs : Prop := (calls.start .torProject).isOk ∧ Undisturbed calls country

end

theorem findSome?_usable (settings : List Setting) :
    settings.findSome? usable = (firstUsable settings).bind usable := by
  induction settings with
  | nil => rfl
  | cons setting settings ih =>
      cases h : usable setting with
      | none => simp [firstUsable, h, ih]
      | some transport => simp [firstUsable, h]

theorem usable_of_firstUsable {settings : List Setting} {setting : Setting} (h : firstUsable settings = some setting) :
    setting ∈ settings ∧ ∃ transport, usable setting = some transport := by
  have hsome := @List.find?_some _ (fun setting => (usable setting).isSome) _ _ h
  exact ⟨List.mem_of_find?_eq_some h, Option.isSome_iff_exists.mp hsome⟩

theorem customLines_of_unusable {setting : Setting} (h : usable setting = none) : customLines setting = [] := by
  cases kind setting with
  | snowflake htype => simp [customLines, htype]
  | custom htype hsource =>
      have hnone : isNullOrEmpty setting.bridge.bridges = true := by
        rcases htype with htype | htype | htype <;>
          simpa [usable, ownTransport, htype, isBuiltin, hsource, carries] using h
      rw [customLines, getD_eq_nil_iff.mpr hnone, ite_self]
  | obfs4 htype hsource => simp [customLines, htype, isBuiltin, hsource]
  | webtunnel htype hsource => simp [customLines, htype, isBuiltin, hsource]
  | dnstt htype hsource => simp [usable, ownTransport, htype, isBuiltin, hsource] at h
  | other htype =>
      simp only [List.mem_cons, List.not_mem_nil, or_false, not_or] at htype
      simp [customLines, htype]

-- CUSTOM is what a setting with custom bridges stands for, and a bare one.
theorem bare_iff {setting : Setting} (h : usable setting = some .custom) : Bare setting ↔ customLines setting = [] := by
  cases kind setting with
  | snowflake htype => simp [usable, ownTransport, htype] at h
  | custom htype hsource =>
      have hcarries : isNullOrEmpty setting.bridge.bridges = false := by
        rcases htype with htype | htype | htype <;>
          simpa [usable, ownTransport, htype, isBuiltin, hsource, carries] using h
      refine iff_of_false (fun hbare => hsource (of_decide_eq_true hbare.2.1)) fun hnil => ?_
      have hlines : customLines setting = setting.bridge.bridges.getD [] := by
        rcases htype with htype | htype | htype <;> simp [customLines, htype, isBuiltin, hsource]
      rw [hlines, getD_eq_nil_iff, hcarries] at hnil
      cases hnil
  | obfs4 htype hsource => simp [usable, ownTransport, htype, isBuiltin, hsource] at h
  | webtunnel htype hsource => simp [usable, ownTransport, htype, isBuiltin, hsource] at h
  | dnstt htype hsource => simp [Bare, customLines, htype, isBuiltin, hsource, carries, getD_eq_nil_iff]
  | other htype =>
      simp only [List.mem_cons, List.not_mem_nil, or_false, not_or] at htype
      simp [usable, ownTransport, htype] at h

theorem usable_of_bare {setting : Setting} (h : Bare setting) : usable setting = some .custom := by
  obtain ⟨htype, hbuiltin, _⟩ := h
  simp [usable, ownTransport, htype, hbuiltin]

-- An answer of which no setting is usable has no bridges either.
theorem lines_of_unusable {settings : List Setting} (h : settings.findSome? usable = none) :
    settings.flatMap customLines = [] := by
  rw [List.flatMap_eq_nil_iff]
  exact fun setting hmem => customLines_of_unusable (List.findSome?_eq_none_iff.mp h setting hmem)

theorem lines_of_extract (builtIn : Companion) (settings : Option (List Setting)) :
    ((extract builtIn settings).1.map Prod.snd).getD [] = (settings.getD []).flatMap customLines := by
  rw [extract_conf]
  cases h : (settings.getD []).findSome? usable with
  | none => exact (lines_of_unusable h).symm
  | some transport => rfl

theorem transport_of_extract (builtIn : Companion) (settings : Option (List Setting)) :
    (extract builtIn settings).1.map Prod.fst = (settings.getD []).findSome? usable := by
  rw [extract_conf, Option.map_map]
  exact congrFun Option.map_id _

variable {calls : Calls} {country : Option String} {cannotConnectWithoutPt : Bool}

theorem outcome_useDefaults (s : State) :
    outcome (useDefaults calls s) =
      (calls.defaults { country := none }).map fun _ =>
        ((defaultSettings calls).findSome? usable).map fun transport =>
          (transport, (defaultSettings calls).flatMap customLines) := by
  unfold useDefaults defaultSettings
  cases calls.defaults { country := none } with
  | error e => rfl
  | ok response =>
      dsimp only
      rw [bind_ok (extracted_ok _), extract_conf]
      rfl

-- Settings in the answer come only with an answer.
theorem outcome_useDefaults_some {setting : Setting} {transport : Transport} (s : State)
    (h : firstUsable (defaultSettings calls) = some setting) (htransport : usable setting = some transport) :
    outcome (useDefaults calls s) = .ok (some (transport, (defaultSettings calls).flatMap customLines)) := by
  rw [outcome_useDefaults, findSome?_usable, h, Option.bind_some, htransport]
  cases hdefaults : calls.defaults { country := none } with
  | ok response => rfl
  | error e =>
      rw [defaultSettings, hdefaults] at h
      cases h

theorem outcome_useDefaults_none (s : State) (h : firstUsable (defaultSettings calls) = none)
    (conf : Transport × List String) : outcome (useDefaults calls s) ≠ .ok (some conf) := by
  rw [outcome_useDefaults, findSome?_usable, h]
  cases calls.defaults { country := none } <;> exact nofun

theorem outcome_useSettings (s : State) :
    ∃ t, outcome (useSettings calls country s) =
      match (settings2 calls country ++ settings calls country).findSome? usable with
      | some transport =>
          .ok (some (transport, (settings calls country ++ settings2 calls country).flatMap customLines))
      | none => outcome (useDefaults calls t) := by
  rw [useSettings, bind_ok (extracted_ok _), bind_ok (extracted_ok _)]
  dsimp only
  rw [transport_of_extract, transport_of_extract, lines_of_extract, lines_of_extract, ← List.flatMap_append,
    ← List.findSome?_append]
  cases h : (settings2 calls country ++ settings calls country).findSome? usable with
  | none =>
      rw [settings, settings2] at h
      exact ⟨_, by rw [h]⟩
  | some transport =>
      rw [settings, settings2] at h
      exact ⟨s, by rw [h]; rfl⟩

section

variable (started : List String) (authenticator : Option MoatTunnel) (builtIn : Companion)

theorem outcome_of_not_runs (h : ¬Runs calls country) :
    ∃ e, outcome (do' calls country cannotConnectWithoutPt (.initial started authenticator builtIn)) = .error e := by
  by_cases hstart : (calls.start .torProject).isOk
  · obtain ⟨e, t, ht, _⟩ := do'_of_disturbed started authenticator builtIn cannotConnectWithoutPt hstart
      fun hundisturbed => h ⟨hstart, hundisturbed⟩
    exact ⟨e, by rw [ht]; rfl⟩
  · obtain ⟨e, he⟩ := startTunnel_error (s := State.initial started authenticator builtIn) hstart
    exact ⟨e, by rw [do', bind_error he]; rfl⟩

theorem outcome_of_decided (h : Runs calls country) {setting : Setting} {inUse : List Setting}
    (hdecided : decided calls country cannotConnectWithoutPt = some (setting, inUse)) :
    ∃ transport, usable setting = some transport ∧
      outcome (do' calls country cannotConnectWithoutPt (.initial started authenticator builtIn)) =
        .ok (some (transport, inUse.flatMap customLines)) := by
  obtain ⟨s, _, hs⟩ := do'_of_undisturbed started authenticator builtIn cannotConnectWithoutPt h.1 h.2
  unfold decided at hdecided
  split at hdecided
  · cases hdecided
  · rename_i hsafe
    obtain ⟨t, ht⟩ := @outcome_useSettings calls country s
    rw [hs, if_neg hsafe, ht, findSome?_usable]
    split at hdecided
    · rename_i first hfirst
      obtain ⟨rfl, rfl⟩ := Prod.mk.inj (Option.some.inj hdecided)
      obtain ⟨_, transport, htransport⟩ := usable_of_firstUsable hfirst
      exact ⟨transport, htransport, by rw [hfirst, Option.bind_some, htransport]⟩
    · rename_i hnone
      obtain ⟨first, hfirst, hpair⟩ := Option.map_eq_some_iff.mp hdecided
      obtain ⟨rfl, rfl⟩ := Prod.mk.inj hpair
      obtain ⟨_, transport, htransport⟩ := usable_of_firstUsable hfirst
      exact ⟨transport, htransport, by rw [hnone, Option.bind_none, outcome_useDefaults_some t hfirst htransport]⟩

theorem outcome_of_undecided (h : Runs calls country) (hdecided : decided calls country cannotConnectWithoutPt = none)
    (lines : List String) :
    outcome (do' calls country cannotConnectWithoutPt (.initial started authenticator builtIn)) ≠
      .ok (some (.custom, lines)) := by
  obtain ⟨s, hsecond, hs⟩ := do'_of_undisturbed started authenticator builtIn cannotConnectWithoutPt h.1 h.2
  unfold decided at hdecided
  split at hdecided
  · rename_i hsafe
    obtain ⟨t, ht, _⟩ := done_closed hsecond
    rw [hs, if_pos hsafe, useNone, bind_ok ht]
    cases lastException calls country <;> rintro ⟨⟩
  · rename_i hsafe
    obtain ⟨t, ht⟩ := @outcome_useSettings calls country s
    rw [hs, if_neg hsafe, ht, findSome?_usable]
    split at hdecided
    · cases hdecided
    · rename_i hnone
      rw [hnone]
      exact outcome_useDefaults_none t (Option.map_eq_none_iff.mp hdecided) _

-- What holds of the bridges that come with CUSTOM, from what is asked for and answered.
theorem custom_iff (P : List String → Prop) :
    (∀ lines, outcome (do' calls country cannotConnectWithoutPt (.initial started authenticator builtIn)) =
        .ok (some (.custom, lines)) → P lines) ↔
      (Runs calls country → ∀ setting inUse, decided calls country cannotConnectWithoutPt = some (setting, inUse) →
        usable setting = some .custom → P (inUse.flatMap customLines)) := by
  constructor
  · intro h hruns setting inUse hdecided hcustom
    obtain ⟨transport, htransport, houtcome⟩ :=
      outcome_of_decided started authenticator builtIn hruns hdecided
    obtain rfl := Option.some.inj (hcustom.symm.trans htransport)
    exact h _ houtcome
  · intro h lines hlines
    by_cases hruns : Runs calls country
    · cases hdecided : decided calls country cannotConnectWithoutPt with
      | none => exact absurd hlines (outcome_of_undecided started authenticator builtIn hruns hdecided lines)
      | some choice =>
          obtain ⟨transport, htransport, houtcome⟩ :=
            outcome_of_decided started authenticator builtIn hruns hdecided
          obtain ⟨rfl, rfl⟩ := Prod.mk.inj (Option.some.inj (Except.ok.inj (houtcome.symm.trans hlines)))
          exact h hruns _ _ hdecided htransport
    · obtain ⟨e, he⟩ := @outcome_of_not_runs calls country cannotConnectWithoutPt started authenticator builtIn
        hruns
      rw [he] at hlines
      cases hlines

end

theorem mem_of_decided {setting : Setting} {inUse : List Setting}
    (h : decided calls country cannotConnectWithoutPt = some (setting, inUse)) : setting ∈ inUse := by
  unfold decided at h
  split at h
  · cases h
  · split at h
    · rename_i first hfirst
      obtain ⟨rfl, rfl⟩ := Prod.mk.inj (Option.some.inj h)
      exact List.mem_append.mpr (List.mem_append.mp (usable_of_firstUsable hfirst).1).symm
    · obtain ⟨first, hfirst, hpair⟩ := Option.map_eq_some_iff.mp h
      obtain ⟨rfl, rfl⟩ := Prod.mk.inj hpair
      exact (usable_of_firstUsable hfirst).1

theorem lines_ne_nil_iff {settings : List Setting} :
    settings.flatMap customLines ≠ [] ↔ ∃ other ∈ settings, customLines other ≠ [] := by
  rw [Ne, List.flatMap_eq_nil_iff]
  push Not
  rfl

-- A setting that stands for CUSTOM and is not bare has bridges of its own.
theorem lines_of_setting_iff {setting : Setting} {inUse : List Setting} (hmem : setting ∈ inUse) :
    (usable setting = some .custom → inUse.flatMap customLines ≠ []) ↔
      (Bare setting → ∃ other ∈ inUse, customLines other ≠ []) := by
  rw [lines_ne_nil_iff]
  constructor
  · exact fun h hbare => h (usable_of_bare hbare)
  · intro h hcustom
    by_cases hbare : Bare setting
    · exact h hbare
    · exact ⟨setting, hmem, fun hnil => hbare ((bare_iff hcustom).mpr hnil)⟩

-- What the coroutine of a handle learns of do.
def moatEvent : Except Throwable (Option (Transport × List String)) → SmartConnect.CoroutineEvent
  | .ok conf => .autoConf conf
  | .error _ => .autoConfThrows

-- The transport and the bridges of Prefs, behind the two assignments of handle.
theorem prefs_of_moatEvent {s t : SmartConnect.State} {handle : Nat}
    {result : Except Throwable (Option (Transport × List String))} (hmoat : s.activity handle = .coroutine .moat)
    (hrun : run SmartConnect.State.step s
      [.coroutine handle (moatEvent result), .coroutine handle .setBridges] = some t) :
    t.transport = (SmartConnect.State.chosen (moatEvent result)).1 ∧
    t.bridges = if (SmartConnect.State.chosen (moatEvent result)).2 = [] then s.bridges
      else storedBridges (SmartConnect.State.chosen (moatEvent result)).2 := by
  obtain ⟨u, hu, hrest⟩ := run_cons_eq_some.mp hrun
  obtain ⟨v, hv, hnil⟩ := run_cons_eq_some.mp hrest
  obtain rfl := Option.some.inj hnil
  have hend : u = s.endAutoConf handle (moatEvent result) := by
    by_cases hcrashed : s.crashed
    · rw [SmartConnect.State.step, if_pos hcrashed] at hu
      cases hu
    · rw [SmartConnect.State.step, if_neg hcrashed] at hu
      cases result <;> simpa [hmoat, moatEvent, SmartConnect.State.stepCoroutine, eq_comm] using hu
  have hactivity : u.activity handle = .coroutine (.setBridges (SmartConnect.State.chosen (moatEvent result)).2) := by
    rw [hend]
    simp [SmartConnect.State.endAutoConf, SmartConnect.Control.move]
  by_cases hcrashed : u.crashed
  · rw [SmartConnect.State.step, if_pos hcrashed] at hv
    cases hv
  · rw [SmartConnect.State.step, if_neg hcrashed] at hv
    simp only [hactivity, SmartConnect.State.stepCoroutine, Option.some.injEq] at hv
    rw [← hv, hend]
    exact ⟨rfl, rfl⟩

-- SmartConnect has bridges for CUSTOM, whatever is stored, exactly where do returns one that is not blank.
theorem switch_iff {result : Except Throwable (Option (Transport × List String))} :
    (∀ (s t : SmartConnect.State) (handle : Nat), s.activity handle = .coroutine .moat →
      run SmartConnect.State.step s [.coroutine handle (moatEvent result), .coroutine handle .setBridges] = some t →
      t.transport = .custom → t.bridgesList ≠ []) ↔
    ∀ lines, result = .ok (some (.custom, lines)) → ∃ line ∈ lines, isBlank line.toList = false := by
  constructor
  · rintro h lines rfl
    let s : SmartConnect.State :=
      { SmartConnect.State.initial .none "" 30 0 with activity := fun _ => .coroutine .moat }
    obtain ⟨t, ht⟩ : ∃ t, run SmartConnect.State.step s
        [.coroutine 0 (moatEvent (.ok (some (.custom, lines)))), .coroutine 0 .setBridges] = some t := ⟨_, rfl⟩
    obtain ⟨htransport, hbridges⟩ := prefs_of_moatEvent rfl ht
    have hne := h s t 0 rfl ht htransport
    rw [SmartConnect.State.bridgesList, hbridges] at hne
    by_cases hlines : lines = []
    · rw [if_pos (by exact hlines)] at hne
      exact absurd rfl hne
    · rw [if_neg (by exact hlines)] at hne
      exact bridgesList_storedBridges_ne_nil_iff.mp hne
  · intro h s t handle hmoat hrun hcustom
    obtain ⟨htransport, hbridges⟩ := prefs_of_moatEvent hmoat hrun
    rw [hcustom] at htransport
    match result, htransport, hbridges, h with
    | .ok (some (transport, lines)), htransport, hbridges, h =>
        obtain rfl : Transport.custom = transport := htransport
        obtain ⟨line, hline, hnot⟩ := h lines rfl
        rw [SmartConnect.State.bridgesList, hbridges, if_neg (List.ne_nil_of_mem (by exact hline))]
        exact bridgesList_storedBridges_ne_nil_iff.mpr ⟨line, hline, hnot⟩

variable (started : List String) (authenticator : Option MoatTunnel) (builtIn : Companion)

-- The bridges that come with CUSTOM are none exactly where a bare setting decides and no other setting
-- has any, and SmartConnect is left without one where they are all blank.
theorem custom_bridges_iff :
    ((∀ lines, outcome (do' calls country cannotConnectWithoutPt (.initial started authenticator builtIn)) =
        .ok (some (.custom, lines)) → lines ≠ []) ↔
      (Runs calls country → ∀ setting inUse, decided calls country cannotConnectWithoutPt = some (setting, inUse) →
        Bare setting → ∃ other ∈ inUse, customLines other ≠ [])) ∧
    ((∀ (s t : SmartConnect.State) (handle : Nat), s.activity handle = .coroutine .moat →
        run SmartConnect.State.step s
          [.coroutine handle (moatEvent (outcome (do' calls country cannotConnectWithoutPt
            (.initial started authenticator builtIn)))), .coroutine handle .setBridges] = some t →
        t.transport = .custom → t.bridgesList ≠ []) ↔
      (Runs calls country → ∀ setting inUse, decided calls country cannotConnectWithoutPt = some (setting, inUse) →
        usable setting = some .custom → ∃ line ∈ inUse.flatMap customLines, isBlank line.toList = false)) := by
  constructor
  · rw [custom_iff]
    refine imp_congr_right fun _ => forall_congr' fun setting => forall_congr' fun inUse => ?_
    exact imp_congr_right fun hdecided => lines_of_setting_iff (mem_of_decided hdecided)
  · rw [switch_iff, custom_iff started authenticator builtIn fun lines => ∃ line ∈ lines, isBlank line.toList = false]

-- The service advertises its built-in DNSTT, without the bridges.
def bareAnswer : Calls :=
  { start := fun _ => .ok ()
    getInstance := fun _ => .ok ()
    builtin := .error (.other "timeout")
    store := .ok ()
    settings := fun _ _ =>
      .ok { settings := some [{ bridge := { type := "dnstt", source := "builtin", bridges := none } }]
            country := some "ru", errors := none }
    defaults := fun _ => .error (.other "timeout")
    lowercase := id
    now := 0
    lastModified := 0 }

theorem bareAnswer_custom :
    ¬∀ lines, outcome (do' bareAnswer none false (.initial [] none ⟨none, none, none⟩)) =
      .ok (some (.custom, lines)) → lines ≠ [] :=
  fun h => h [] rfl rfl

end ToInet.Circumvention.AutoConf
