import ToInet.Util.PresetSwitch

namespace ToInet.Util.PresetManager

open ToInet.Lib ToInet.Running

variable {android : Android} {prefs : SharedPreferences} {tor : TorService}

theorem deliverAll_append (first second : List Command) (s : State) :
    deliverAll android prefs tor (first ++ second) s =
      deliverAll android prefs tor second (deliverAll android prefs tor first s) :=
  List.foldl_append

theorem torService_start (running : Option Configuration) :
    tor.onStartCommand .start prefs running =
      Services.start false (launched android prefs tor .torService) running := by
  cases running with
  | none => rfl
  | some c => exact tor.start_ignored prefs c

-- TorService runs as after a start: binding it changes nothing.
def Settled (android : Android) (prefs : SharedPreferences) (tor : TorService) (s : State) : Prop :=
  Services.start false (launched android prefs tor .torService) (s.running .torService) =
    s.running .torService

theorem onStart_running (s : State) (service : Service)
    (hsettled : service = .orbot → Settled android prefs tor s) :
    (onStart android prefs tor s service).running =
      Function.update s.running service
        (Services.start (restarts service) (launched android prefs tor service) (s.running service)) := by
  cases service with
  | torService => rw [onStart, torService_start]; rfl
  | orbot =>
      rw [onStart]
      split
      · rename_i hconnected
        obtain ⟨c, hc⟩ := Option.isSome_iff_exists.mp hconnected
        simp [hc, restarts, Services.start]
      · rename_i hconnected
        have hnone := Option.not_isSome_iff_eq_none.mp hconnected
        have hbound := hsettled rfl
        rw [Settled, ← torService_start] at hbound
        simp [State.set, hbound, hnone, restarts, Services.start]
  | byedpiProxy | byedpiVpn =>
      rw [onStart]
      split
      · rename_i hconnected
        obtain ⟨c, hc⟩ := Option.isSome_iff_exists.mp hconnected
        simp [hc, restarts, Services.start]
      · rename_i hconnected
        have hnone := Option.not_isSome_iff_eq_none.mp hconnected
        simp [State.set, hnone, restarts, Services.start]
  | tgws | turnProxy | operaProxy | rehabilitator => rfl

theorem settled_onStart (s : State) (service : Service)
    (hsettled : service ≠ .torService → Settled android prefs tor s) :
    Settled android prefs tor (onStart android prefs tor s service) := by
  by_cases htor : service = .torService
  · subst htor
    rw [Settled, onStart_running s .torService (fun h => nomatch h), Function.update_self]
    exact Services.start_start _ _ _
  · have hs := hsettled htor
    rw [Settled, onStart_running s _ fun _ => hs, Function.update_of_ne (Ne.symm htor)]
    exact hs

-- What a list of starts makes of the services. OrbotService is started only after TorService.
theorem deliverAll_start_running (starts : List Service) (s : State)
    (hsettled : .orbot ∈ starts → Settled android prefs tor s) :
    (deliverAll android prefs tor (starts.map .start) s).running =
      Services.startAll restarts (launched android prefs tor) starts s.running := by
  induction starts generalizing s with
  | nil => exact Services.startAll_nil.symm
  | cons service starts ih =>
      rw [List.mem_cons] at hsettled
      have hs (h : service = .orbot) := hsettled (.inl h.symm)
      rw [← Services.startAll_cons, ← onStart_running s service hs]
      exact ih _ fun hmem => settled_onStart s service fun _ => hsettled (.inr hmem)

theorem mem_started (enabled : Bool) (x y : Service) :
    x ∈ started enabled y ↔ enabled = true ∧ x = y := by
  cases enabled <;> simp [started]

theorem orbot_mem_sendStart {texts : FloatTexts} (h : .orbot ∈ sendStart texts prefs) :
    Prefs.torEnabled texts prefs = true := by
  simp only [sendStart, List.mem_append, mem_started, reduceCtorEq, and_false, false_or, and_true] at h
  cases h with
  | inl htor => exact htor
  | inr hrest =>
      split at hrest
      · exact absurd hrest List.not_mem_nil
      · simp [mem_started] at hrest

-- OrbotService is started only where TorService is.
theorem orbot_mem_startEnabled {texts : FloatTexts} (h : .orbot ∈ startEnabled texts prefs) :
    Prefs.torEnabled texts prefs = true := by
  simp only [startEnabled, List.mem_append, mem_started, reduceCtorEq, and_false, false_or] at h
  split at h
  · exact absurd h List.not_mem_nil
  · simp only [List.mem_append, mem_started, reduceCtorEq, and_false, false_or] at h
    split at h
    · exact orbot_mem_sendStart h
    · exact absurd h List.not_mem_nil

theorem startEnabled_running (s : State) :
    (deliverAll android prefs tor ((startEnabled android.texts prefs).map .start) s).running =
      Services.startAll restarts (launched android prefs tor) (startEnabled android.texts prefs)
        s.running := by
  cases htor : Prefs.torEnabled android.texts prefs with
  | true =>
      rw [startEnabled, htor, started, if_pos rfl, List.singleton_append, List.map_cons,
        ← Services.startAll_cons, ← onStart_running s .torService (fun h => nomatch h)]
      exact deliverAll_start_running _ _ fun _ => settled_onStart s .torService (absurd rfl)
  | false =>
      apply deliverAll_start_running
      intro hmem
      exact absurd (htor.symm.trans (orbot_mem_startEnabled hmem)) Bool.false_ne_true

-- What stopAll stops: without a control connection, OrbotService does not stop TorService.
def stopAllStops (s : State) (service : Service) : Bool :=
  service ≠ .torService || (s.running .orbot).isSome

theorem sendStop_running (s : State) :
    (deliverAll android prefs tor sendStop s).running =
      Services.stopAll (stopAllStops s) s.running := by
  funext service
  cases hconnected : s.running .orbot <;> cases service <;>
    simp [deliverAll, sendStop, deliver, onStop, State.set, hconnected, stopAllStops, Services.stopAll]

-- One service stopped, and nothing else changed.
def stopOne (service : Service) (s : State) : State :=
  { s with running := Services.stopAll (fun x => x = service) s.running }

theorem stopOne_of_none (service : Service) (s : State) (h : s.running service = none) :
    stopOne service s = s := by
  have hrunning : Services.stopAll (fun x => x = service) s.running = s.running := by
    funext x
    by_cases hx : x = service
    · simp [Services.stopAll, hx, h]
    · simp [Services.stopAll, hx]
  rw [stopOne, hrunning]

theorem set_none_eq_stopOne (service : Service) (s : State) : s.set service none = stopOne service s := by
  rw [State.set, stopOne]
  congr 1
  funext x
  by_cases hx : x = service
  · subst hx
    simp [Services.stopAll]
  · simp [Services.stopAll, hx]

-- The services that are stopped by a command of their own.
theorem deliver_stop (s : State) (service : Service)
    (h : service ∈ [.torService, .tgws, .turnProxy, .operaProxy, .rehabilitator]) :
    deliver android prefs tor s (.stop service) = stopOne service s := by
  rw [← set_none_eq_stopOne, deliver]
  cases service with
  | torService => rw [onStop, tor.stop_ends]
  | orbot | byedpiProxy | byedpiVpn => simp at h
  | tgws | turnProxy | operaProxy | rehabilitator => rfl

-- The mode is that of the service that ServiceManager.stop stops.
theorem deliver_stopByedpi (s : State) :
    deliver android prefs tor s .stopByedpi = stopOne s.mode.service s := by
  rw [← set_none_eq_stopOne, deliver]
  obtain ⟨running, mode⟩ := s
  cases mode <;> rfl

theorem stopAll_running (s : State) :
    (deliverAll android prefs tor stopAll s).running =
      Services.stopAll (stopAllStops s) s.running := by
  rw [stopAll, deliverAll_append, ← @sendStop_running android prefs tor]
  generalize ht : deliverAll android prefs tor sendStop s = t
  have hstopped (service : Service) (hne : service ≠ .torService) : t.running service = none := by
    rw [← ht, sendStop_running, Services.stopAll, stopAllStops]
    simp [hne]
  have hstop (service : Service) (hne : service ≠ .torService)
      (hmem : service ∈ [.torService, .tgws, .turnProxy, .operaProxy, .rehabilitator]) :
      deliver android prefs tor t (.stop service) = t := by
    rw [deliver_stop t service hmem, stopOne_of_none service t (hstopped service hne)]
  have hstopByedpi : deliver android prefs tor t .stopByedpi = t := by
    rw [deliver_stopByedpi, stopOne_of_none _ _ (hstopped _ (by cases t.mode <;> decide))]
  simp only [deliverAll, List.foldl_cons, List.foldl_nil]
  rw [hstop .tgws (by decide) (by decide), hstopByedpi, hstop .turnProxy (by decide) (by decide),
    hstop .operaProxy (by decide) (by decide), hstop .rehabilitator (by decide) (by decide)]

variable {texts : FloatTexts} (oldJson newJson : JSONObject)

-- What smartSwitch stops by a command to the service itself.
def stopsService (oldJson newJson : JSONObject) (s : State) : Service → Bool
  | .torService => stopsTor oldJson newJson
  | .orbot => false
  | .tgws => stopsTgws oldJson newJson
  | .byedpiProxy => stopsByedpi oldJson newJson && s.mode = .proxy
  | .byedpiVpn => stopsByedpi oldJson newJson && s.mode = .vpn
  | .turnProxy => stopsTurnProxy oldJson newJson
  | .operaProxy => stopsOperaProxy oldJson newJson
  | .rehabilitator => stopsRehabilitator oldJson newJson

-- What smartSwitch stops before it starts what is enabled.
def smartSwitchStops (texts : FloatTexts) (oldJson newJson : JSONObject) (s : State)
    (service : Service) : Bool :=
  stopsService oldJson newJson s service || stopsVpn texts oldJson newJson && stopAllStops s service

theorem deliverAll_stopped (stops : Bool) (command : Command) (service : Service) (s : State)
    (h : deliver android prefs tor s command = stopOne service s) :
    deliverAll android prefs tor (stopped stops [command]) s =
      { s with running := Services.stopAll (fun x => stops && x = service) s.running } := by
  cases stops with
  | false => rfl
  | true => exact h.trans (by simp [stopOne])

theorem stopDisabledOrChanged_running (s : State) :
    (deliverAll android prefs tor (stopDisabledOrChanged texts oldJson newJson) s).running =
      Services.stopAll (smartSwitchStops texts oldJson newJson s) s.running := by
  simp only [stopDisabledOrChanged, deliverAll_append]
  rw [deliverAll_stopped (stopsTor oldJson newJson) _ _ s (deliver_stop _ .torService (by decide)),
    deliverAll_stopped (stopsTgws oldJson newJson) _ _ _ (deliver_stop _ .tgws (by decide)),
    deliverAll_stopped (stopsByedpi oldJson newJson) _ _ _ (deliver_stopByedpi _),
    deliverAll_stopped (stopsTurnProxy oldJson newJson) _ _ _ (deliver_stop _ .turnProxy (by decide)),
    deliverAll_stopped (stopsOperaProxy oldJson newJson) _ _ _ (deliver_stop _ .operaProxy (by decide)),
    deliverAll_stopped (stopsRehabilitator oldJson newJson) _ _ _
      (deliver_stop _ .rehabilitator (by decide))]
  simp only [Services.stopAll_stopAll]
  have hown : (fun x =>
      (((((stopsTor oldJson newJson && decide (x = .torService)) ||
        (stopsTgws oldJson newJson && decide (x = .tgws))) ||
        (stopsByedpi oldJson newJson && decide (x = s.mode.service))) ||
        (stopsTurnProxy oldJson newJson && decide (x = .turnProxy))) ||
        (stopsOperaProxy oldJson newJson && decide (x = .operaProxy))) ||
        (stopsRehabilitator oldJson newJson && decide (x = .rehabilitator))) =
      stopsService oldJson newJson s := by
    funext service
    cases hmode : s.mode <;> cases service <;> simp [stopsService, Mode.service, hmode]
  rw [hown]
  cases hvpn : stopsVpn texts oldJson newJson with
  | false =>
      have hstops : smartSwitchStops texts oldJson newJson s = stopsService oldJson newJson s := by
        funext service
        simp [smartSwitchStops, hvpn]
      rw [hstops]
      rfl
  | true =>
      rw [stopped, if_pos rfl, sendStop_running, Services.stopAll_stopAll]
      congr 1
      funext service
      simp [smartSwitchStops, hvpn, stopAllStops, Services.stopAll, stopsService]

theorem restartAll_running (s : State) :
    (deliverAll android prefs tor (restartAll android.texts prefs) s).running =
      Services.startAll restarts (launched android prefs tor) (startEnabled android.texts prefs)
        (Services.stopAll (stopAllStops s) s.running) := by
  rw [restartAll, deliverAll_append, startEnabled_running, stopAll_running]

theorem smartSwitch_running (s : State) :
    (deliverAll android prefs tor (smartSwitch android.texts prefs oldJson newJson) s).running =
      Services.startAll restarts (launched android prefs tor) (startEnabled android.texts prefs)
        (Services.stopAll (smartSwitchStops android.texts oldJson newJson s) s.running) := by
  rw [smartSwitch, deliverAll_append, startEnabled_running, stopDisabledOrChanged_running]

-- From any services, a snapshot that is applied to any preferences: both ways end alike
-- exactly when each service that ran is stopped by both, or is launched anew by its start,
-- or runs with the new configuration already.
theorem smartSwitch_eq_restartAll_iff (android : Android) (tor : TorService)
    (prefs : SharedPreferences) (snapshot : JSONText) (s : State) :
    let applied := applySnapshot prefs snapshot
    let oldJson := parse (createSnapshot prefs)
    (deliverAll android applied tor
          (smartSwitch android.texts applied oldJson (parse snapshot)) s).running =
        (deliverAll android applied tor (restartAll android.texts applied) s).running ↔
      ∀ service c, s.running service = some c →
        smartSwitchStops android.texts oldJson (parse snapshot) s service = stopAllStops s service ∨
          service ∈ startEnabled android.texts applied ∧
            (restarts service = true ∨ launched android applied tor service = some c) := by
  intro applied oldJson
  rw [smartSwitch_running, restartAll_running]
  exact Services.startAll_stopAll_eq_iff _ _ _

-- What runs is enabled, with the configuration of the preferences.
def Consistent (android : Android) (prefs : SharedPreferences) (tor : TorService) (s : State) : Prop :=
  ∀ service, s.running service = none ∨
    enabled android.texts prefs service = true ∧
      s.running service = launched android prefs tor service

-- TurnProxy is enabled by a key that smartSwitch does not know, so it outlives a preset
-- without it.
theorem smartSwitch_ne_restartAll :
    let android : Android := { texts := ⟨fun _ => "", fun _ => ""⟩, startSucceeds := fun _ _ => true }
    let tor : TorService :=
      { onStartCommand := fun action _ running =>
          match action with
          | .start => running.or (some [])
          | .stop => none
        stop_ends := fun _ _ => rfl
        start_ignored := fun _ _ => rfl }
    let prefs (turnProxy : Bool) : SharedPreferences :=
      ((∅ : SharedPreferences).insert "tor_enabled" (.boolean false)).insert
        "pref_turn_proxy_enabled" (.boolean turnProxy)
    let snapshot := createSnapshot (prefs false)
    let applied := applySnapshot (prefs true) snapshot
    let s : State :=
      { running := fun service =>
          if service = .turnProxy then launched android (prefs true) tor service else none
        mode := .proxy }
    Consistent android (prefs true) tor s ∧
      (deliverAll android applied tor
          (smartSwitch android.texts applied (parse (createSnapshot (prefs true)))
            (parse snapshot)) s).running .turnProxy ≠
        (deliverAll android applied tor (restartAll android.texts applied) s).running .turnProxy := by
  refine ⟨fun service => ?_, by decide⟩
  by_cases hservice : service = .turnProxy
  · subst hservice
    exact .inr ⟨by decide, rfl⟩
  · exact .inl (if_neg hservice)

end ToInet.Util.PresetManager
