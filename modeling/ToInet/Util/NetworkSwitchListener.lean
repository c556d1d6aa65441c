import ToInet.Lib.Transition
import ToInet.Util.Prefs

-- The presets that are applied when the type of the network changes.
namespace ToInet.Util.NetworkSwitchListener

open ToInet.Lib

inductive NetworkType where
  | wifi
  | cellular
deriving DecidableEq

-- What a callback reports of a network, and the presets that are stored then.
structure Callback (ν : Type) where
  network : ν
  hasWifi : Bool
  hasCellular : Bool
  wifiPreset : List Char
  mobilePreset : List Char

variable {ν : Type}

def Callback.currentType (callback : Callback ν) : Option NetworkType :=
  if callback.hasWifi then some .wifi
  else if callback.hasCellular then some .cellular
  else none

def Callback.presetJson (callback : Callback ν) : NetworkType → List Char
  | .wifi => callback.wifiPreset
  | .cellular => callback.mobilePreset

def isBlank (text : List Char) : Bool := text.all Prefs.isWhitespace

structure Listener where
  isRegistered : Bool
  lastNetworkType : Option NetworkType
deriving DecidableEq

def Listener.new : Listener := { isRegistered := false, lastNetworkType := none }

def Listener.register (listener : Listener) : Listener :=
  if listener.isRegistered then listener else { listener with isRegistered := true }

-- The listener behind the callback, and the preset that PresetManager is given.
def Listener.onCapabilitiesChanged (listener : Listener) (callback : Callback ν) :
    Listener × Option (List Char) :=
  match callback.currentType with
  | none => (listener, none)
  | some currentType =>
      if some currentType = listener.lastNetworkType then (listener, none)
      else
        let presetJson := callback.presetJson currentType
        ({ listener with lastNetworkType := some currentType },
          -- The very first type is no switch.
          if listener.lastNetworkType = none then none
          else if isBlank presetJson then none
          else some presetJson)

inductive Event (ν : Type) where
  | register
  | onCapabilitiesChanged (callback : Callback ν)

-- The listener, and the callbacks that it has had.
structure Heard (ν : Type) where
  listener : Listener
  callbacks : List (Callback ν)

def start : Heard ν := { listener := .new, callbacks := [] }

-- There are no callbacks before the listener is registered.
def step (s : Heard ν) : Event ν → Option (Heard ν)
  | .register => some { s with listener := s.listener.register }
  | .onCapabilitiesChanged callback =>
      if s.listener.isRegistered then
        some { listener := (s.listener.onCapabilitiesChanged callback).1, callbacks := s.callbacks ++ [callback] }
      else none

def applied (s : Heard ν) : Event ν → Option (List Char)
  | .register => none
  | .onCapabilitiesChanged callback => (s.listener.onCapabilitiesChanged callback).2

def Event.callback? : Event ν → Option (Callback ν)
  | .register => none
  | .onCapabilitiesChanged callback => some callback

-- No callback reports a transport that another one has not reported of its network.
def Stable (events : List (Event ν)) : Prop :=
  ∀ callback ∈ events.filterMap Event.callback?, ∀ other ∈ events.filterMap Event.callback?,
    callback.network = other.network →
      callback.hasWifi = other.hasWifi ∧ callback.hasCellular = other.hasCellular

-- No preset is applied when a network is reported again.
def Quiet (s : Heard ν) (event : Event ν) : Prop :=
  ∀ callback, event.callback? = some callback → callback.network ∈ s.callbacks.map Callback.network →
    applied s event = none

-- A preset that is applied is that of the type just reported.
def Matching (s : Heard ν) (event : Event ν) : Prop :=
  ∀ presetJson, applied s event = some presetJson → ∃ callback type, event.callback? = some callback ∧
    callback.currentType = some type ∧ presetJson = callback.presetJson type

-- The type that the callbacks have reported last.
def lastType (callbacks : List (Callback ν)) : Option NetworkType :=
  (callbacks.filterMap Callback.currentType).getLast?

-- A network that is reported again has the type reported last, or no preset for its type.
def Steady (s : Heard ν) (event : Event ν) : Prop :=
  ∀ callback, event.callback? = some callback → callback.network ∈ s.callbacks.map Callback.network →
    ∀ type last, callback.currentType = some type → lastType s.callbacks = some last →
      last = type ∨ isBlank (callback.presetJson type) = true

def Tracks (s : Heard ν) : Prop := s.listener.lastNetworkType = lastType s.callbacks

theorem lastType_append (callbacks : List (Callback ν)) (callback : Callback ν) :
    lastType (callbacks ++ [callback]) = callback.currentType.or (lastType callbacks) := by
  rw [lastType, List.filterMap_append]
  cases htype : callback.currentType with
  | none => simp [htype, lastType]
  | some type => simp [htype]

theorem tracks_step {s t : Heard ν} {event : Event ν} (h : Tracks s) (hstep : step s event = some t) : Tracks t := by
  cases event with
  | register =>
      obtain rfl := Option.some.inj hstep
      unfold Tracks Listener.register
      split
      · exact h
      · exact h
  | onCapabilitiesChanged callback =>
      rw [step] at hstep
      split at hstep
      · obtain rfl := Option.some.inj hstep
        rw [Tracks, lastType_append, ← h, Listener.onCapabilitiesChanged]
        cases callback.currentType with
        | none => rfl
        | some type =>
            simp only
            split
            · rename_i hsame
              exact hsame.symm
            · rfl
      · cases hstep

theorem applied_eq_none_iff {s : Heard ν} (h : Tracks s) {callback : Callback ν} :
    applied s (.onCapabilitiesChanged callback) = none ↔
      ∀ type last, callback.currentType = some type → lastType s.callbacks = some last →
        last = type ∨ isBlank (callback.presetJson type) = true := by
  rw [applied, Listener.onCapabilitiesChanged, h]
  cases callback.currentType with
  | none => exact iff_of_true rfl nofun
  | some type =>
      cases lastType s.callbacks with
      | none => exact iff_of_true rfl nofun
      | some last =>
          by_cases hsame : type = last
          · simp [hsame]
          · by_cases hblank : isBlank (callback.presetJson type) = true
            · simp [hsame, hblank]
            · have hother : ¬last = type := fun h => hsame h.symm
              simp [hsame, hblank, hother]

theorem quiet_iff {s : Heard ν} (h : Tracks s) (event : Event ν) : Quiet s event ↔ Steady s event := by
  cases event with
  | register => exact iff_of_true nofun nofun
  | onCapabilitiesChanged callback =>
      refine forall_congr' fun other => forall_congr' fun hother => forall_congr' fun _ => ?_
      obtain rfl := Option.some.inj hother
      exact applied_eq_none_iff h

theorem matching (s : Heard ν) (event : Event ν) : Matching s event := by
  intro presetJson happlied
  cases event with
  | register => cases happlied
  | onCapabilitiesChanged callback =>
      rw [applied, Listener.onCapabilitiesChanged] at happlied
      split at happlied
      · cases happlied
      · rename_i type htype
        refine ⟨callback, type, rfl, htype, ?_⟩
        split at happlied
        · cases happlied
        · simp only at happlied
          split at happlied
          · cases happlied
          · split at happlied
            · cases happlied
            · exact (Option.some.inj happlied).symm

theorem tracks_start : Tracks (start : Heard ν) := rfl

-- While no network changes its transports, no preset is applied when one is reported again exactly if
-- each such report is steady; and the preset of the type just reported is the only one ever applied.
theorem quiet_and_matching_iff (events : List (Event ν)) :
    (Stable events → Allowed step Quiet start events) ∧ Allowed step Matching start events ↔
      (Stable events → Allowed step Steady start events) := by
  have hquiet : Allowed step Quiet start events ↔ Allowed step Steady start events :=
    allowed_congr_of_inv Tracks (fun s event t h => tracks_step h) (fun s event h => quiet_iff h event) tracks_start
  rw [hquiet]
  exact and_iff_left (allowed_of_forall fun event _ s => matching s event)

def wifiReport : Event Nat :=
  .onCapabilitiesChanged
    { network := 0, hasWifi := true, hasCellular := false, wifiPreset := ['w'], mobilePreset := ['m'] }

def cellularReport : Event Nat :=
  .onCapabilitiesChanged
    { network := 1, hasWifi := false, hasCellular := true, wifiPreset := ['w'], mobilePreset := ['m'] }

-- Both networks stay connected, and Wi-Fi is reported again.
theorem not_quiet_between_networks :
    ¬∀ events : List (Event Nat),
      (Stable events → Allowed step Quiet start events) ∧ Allowed step Matching start events := by
  intro h
  have hstable : Stable [.register, wifiReport, cellularReport, wifiReport] := by
    unfold Stable
    decide
  have hquiet := (h _).1 hstable
  have hagain := ((((hquiet.2 _ rfl).2 _ rfl).2 _ rfl).1 _ rfl (by decide))
  exact absurd hagain (by decide)

end ToInet.Util.NetworkSwitchListener
