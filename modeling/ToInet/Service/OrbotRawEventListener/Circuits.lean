import Mathlib.Logic.Function.Basic
import ToInet.Lib.Transition
import ToInet.Service.OrbotRawEventListener.Events

-- The circuits of Tor from their launch to their end, against what the listener keeps of them.
namespace ToInet.Service.OrbotRawEventListener

open ToInet.Lib ToInet.Util

inductive Phase where
  | launched (flagged : Bool)
  | built (flagged : Bool) (path : List Char)
deriving DecidableEq

def Phase.flagged : Phase → Bool
  | launched flagged => flagged
  | built flagged _ => flagged

-- A node is its fingerprint, with a name behind ~ or =.
def fingerprint (hop : List Char) : List Char := hop.takeWhile fun c => c ≠ '~' && c ≠ '='

-- The exit of a circuit that clients use.
def Phase.exitNode : Phase → Option ExitNode
  | built false path => some { fingerPrint := fingerprint (lastPart ',' path) }
  | _ => none

-- The circuits that Tor has, each in its phase.
abbrev Circuits := Int → Option Phase

-- A circuit is launched and extended, then it is built and later closed, or it fails.
def lifeStep (circuits : Circuits) (event : CircuitEvent) : Option Circuits :=
  match event.status, circuits event.id with
  | .launched, none => some (Function.update circuits event.id (some (.launched event.isFlagged)))
  | .extended, some (.launched flagged) => if flagged = event.isFlagged then some circuits else none
  | .built, some (.launched flagged) =>
      if flagged = event.isFlagged then
        some (Function.update circuits event.id (some (.built flagged (event.hops.getD []))))
      else none
  | .failed, some (.launched flagged) =>
      if flagged = event.isFlagged then some (Function.update circuits event.id none) else none
  | .closed, some (.built flagged _) =>
      if flagged = event.isFlagged then some (Function.update circuits event.id none) else none
  | _, _ => none

-- The listener keeps the exits of the circuits that are built, and the flagged circuits.
structure Tracks (circuits : Circuits) (s : State) : Prop where
  exits : ∀ id, s.exitNodeMap.lookup id = (circuits id).bind Phase.exitNode
  ignored : ∀ id, id ∈ s.ignoredInternalCircuits ↔ ∃ phase, circuits id = some phase ∧ phase.flagged = true

variable {event : CircuitEvent}

-- Each status needs its phase, which it ends.
theorem lifeStep_cases {circuits after : Circuits} (h : lifeStep circuits event = some after) :
    (event.status = .launched ∧ circuits event.id = none ∧
        after = Function.update circuits event.id (some (.launched event.isFlagged))) ∨
      (event.status = .extended ∧ circuits event.id = some (.launched event.isFlagged) ∧ after = circuits) ∨
      (event.status = .built ∧ circuits event.id = some (.launched event.isFlagged) ∧
        after = Function.update circuits event.id (some (.built event.isFlagged (event.hops.getD [])))) ∨
      (event.status = .failed ∧ circuits event.id = some (.launched event.isFlagged) ∧
        after = Function.update circuits event.id none) ∨
      (event.status = .closed ∧ (∃ path, circuits event.id = some (.built event.isFlagged path)) ∧
        after = Function.update circuits event.id none) := by
  unfold lifeStep at h
  split at h
  · rename_i hstatus hphase
    exact .inl ⟨hstatus, hphase, (Option.some.inj h).symm⟩
  · rename_i flagged hstatus hphase
    obtain ⟨rfl, hsome⟩ := Option.ite_none_right_eq_some.mp h
    exact .inr (.inl ⟨hstatus, hphase, (Option.some.inj hsome).symm⟩)
  · rename_i flagged hstatus hphase
    obtain ⟨rfl, hsome⟩ := Option.ite_none_right_eq_some.mp h
    exact .inr (.inr (.inl ⟨hstatus, hphase, (Option.some.inj hsome).symm⟩))
  · rename_i flagged hstatus hphase
    obtain ⟨rfl, hsome⟩ := Option.ite_none_right_eq_some.mp h
    exact .inr (.inr (.inr (.inl ⟨hstatus, hphase, (Option.some.inj hsome).symm⟩)))
  · rename_i flagged path hstatus hphase
    obtain ⟨rfl, hsome⟩ := Option.ite_none_right_eq_some.mp h
    exact .inr (.inr (.inr (.inr ⟨hstatus, ⟨path, hphase⟩, (Option.some.inj hsome).symm⟩)))
  · cases h

-- Where a step leaves the other circuits alone, it is judged by its own.
theorem tracks_update_iff {circuits : Circuits} {s t : State} {id : Int} {phase : Option Phase}
    (h : Tracks circuits s) (hexits : ∀ other, other ≠ id → t.exitNodeMap.lookup other = s.exitNodeMap.lookup other)
    (hignored : ∀ other, other ≠ id → (other ∈ t.ignoredInternalCircuits ↔ other ∈ s.ignoredInternalCircuits)) :
    Tracks (Function.update circuits id phase) t ↔
      t.exitNodeMap.lookup id = phase.bind Phase.exitNode ∧
        (id ∈ t.ignoredInternalCircuits ↔ ∃ p, phase = some p ∧ p.flagged = true) := by
  constructor
  · intro ht
    have hexit := ht.exits id
    have hflag := ht.ignored id
    rw [Function.update_self] at hexit hflag
    exact ⟨hexit, hflag⟩
  · rintro ⟨hexit, hflag⟩
    refine ⟨fun other => ?_, fun other => ?_⟩
    · obtain rfl | hne := eq_or_ne other id
      · rw [Function.update_self, hexit]
      · rw [Function.update_of_ne hne, hexits other hne, h.exits]
    · obtain rfl | hne := eq_or_ne other id
      · rw [Function.update_self, hflag]
      · rw [Function.update_of_ne hne, hignored other hne, h.ignored]

-- The listener cuts a hop at ~ only.
theorem takeWhile_eq_fingerprint (hop : List Char) :
    hop.takeWhile (· ≠ '~') = fingerprint hop ↔ '=' ∉ hop.takeWhile (· ≠ '~') := by
  have hcut : fingerprint hop = (hop.takeWhile (· ≠ '~')).takeWhile (· ≠ '=') := by
    rw [fingerprint, List.takeWhile_takeWhile]
    refine congrArg (fun p => hop.takeWhile p) (funext fun c => ?_)
    simp [Bool.and_comm]
  rw [hcut, eq_comm, List.takeWhile_eq_self_iff]
  simp only [ne_eq, decide_eq_true_eq]
  exact ⟨fun h hmem => h _ hmem rfl, fun h c hc heq => h (heq ▸ hc)⟩

theorem path_of_built (hstatus : event.status = .built) :
    event.path = event.hops.getD [] ∧ ∀ part ∈ event.path.splitOn ',',
      part ≠ [] ∧ part.head? ≠ some '~' ∧ part.head? ≠ some '=' := by
  obtain ⟨path, hpath, hhops⟩ := event.built hstatus
  have hparts := event.parts
  simp only [hpath, Option.toList_some, List.cons_append, List.nil_append, List.headD_cons] at hparts
  have heq : event.path = path := by
    rw [CircuitEvent.path, if_neg (by simp [hstatus]), CircuitEvent.fields, hpath]
    rfl
  rw [heq, hpath]
  exact ⟨rfl, fun part hpart => ⟨hhops part hpart, hparts part hpart⟩⟩

theorem exit_of_built (hstatus : event.status = .built) :
    (split ',' event.path).getLast? = some (lastPart ',' event.path) ∧
      (split '~' (lastPart ',' event.path)).head? = some ((lastPart ',' event.path).takeWhile (· ≠ '~')) := by
  have hparts := (path_of_built hstatus).2
  have hlast := lastPart_mem ',' event.path
  constructor
  · rw [split_eq_splitOn fun part hpart => (hparts part hpart).1, lastPart, List.getLastD_eq_getLast?,
      List.getLast?_eq_some_getLast (List.splitOn_ne_nil ',' event.path), Option.getD_some]
  · obtain ⟨rest, hrest⟩ := split_eq_cons (hparts _ hlast).1 (hparts _ hlast).2.1
    rw [hrest, List.head?_cons]

-- While a circuit that clients use lives, its lines say the words of the flags nowhere.
def Unmistaken (event : CircuitEvent) : Prop :=
  event.status ≠ .failed → event.status ≠ .closed → event.isFlagged = false →
    ∀ field ∈ event.hops.toList ++ event.others, isFlagged field = false

-- A circuit that clients use is built with an exit whose name stands behind ~.
def ExitCut (event : CircuitEvent) : Prop :=
  event.status = .built → event.isFlagged = false →
    '=' ∉ (lastPart ',' (event.hops.getD [])).takeWhile (· ≠ '~')

theorem unmistaken_iff (hfailed : event.status ≠ .failed) (hclosed : event.status ≠ .closed) :
    Unmistaken event ↔ (event.seemsFlagged = true ↔ event.isFlagged = true) := by
  rw [seemsFlagged_iff]
  cases hflagged : event.isFlagged with
  | false => simp [Unmistaken, hfailed, hclosed, hflagged]
  | true => simp [Unmistaken, hflagged]

theorem unmistaken_of_ended (h : event.status = .failed ∨ event.status = .closed) :
    Unmistaken event ∧ ExitCut event := by
  obtain h | h := h
  · exact ⟨fun hfailed => absurd h hfailed, fun hbuilt => by rw [h] at hbuilt; cases hbuilt⟩
  · exact ⟨fun _ hclosed => absurd h hclosed, fun hbuilt => by rw [h] at hbuilt; cases hbuilt⟩

theorem handleExpanded_eq (status : Status) {id : Int} (hid : FitsInt32 id) (path : List Char) (s : State) :
    handleCircuitStatusExpandedNotifications status.text (decimal id) path s =
      match status with
      | .built =>
          if id ∈ s.ignoredInternalCircuits then some s
          else (split ',' path).getLast?.bind fun exit => (split '~' exit).head?.bind fun fingerPrint =>
            some { s with exitNodeMap := AList.insert id { fingerPrint } s.exitNodeMap }
      | .closed =>
          some { s with
            exitNodeMap := s.exitNodeMap.erase id
            ignoredInternalCircuits := s.ignoredInternalCircuits.erase id }
      | .failed => some { s with ignoredInternalCircuits := s.ignoredInternalCircuits.erase id }
      | _ => some s := by
  rw [handleCircuitStatusExpandedNotifications, Prefs.parseInt_decimal hid]
  cases status <;> rfl

theorem flagged_built_iff {flagged : Bool} {path : List Char} :
    (∃ p, some (Phase.built flagged path) = some p ∧ p.flagged = true) ↔ flagged = true := by
  simp [Phase.flagged]

-- A circuit that is built is an exit unless it seems flagged, and the exit is what has been cut of its last hop.
theorem built_tracks {circuits : Circuits} {s before : State} (h : Tracks circuits s)
    (hstatus : event.status = .built) (hphase : circuits event.id = some (.launched event.isFlagged))
    (hexits : before.exitNodeMap = s.exitNodeMap)
    (hignored : before.ignoredInternalCircuits = event.ignoredAfter s.ignoredInternalCircuits) :
    ∃ t, handleCircuitStatusExpandedNotifications event.status.text (decimal event.id) event.path before = some t ∧
      (Tracks (Function.update circuits event.id (some (.built event.isFlagged (event.hops.getD [])))) t ↔
        Unmistaken event ∧ ExitCut event) := by
  have hold := h.ignored event.id
  have hself := @mem_ignoredAfter event s.ignoredInternalCircuits (by simp [hold, hphase, Phase.flagged])
  rw [← hignored] at hself
  have hother (id : Int) (hne : id ≠ event.id) :
      id ∈ before.ignoredInternalCircuits ↔ id ∈ s.ignoredInternalCircuits := by
    rw [hignored]
    exact mem_ignoredAfter_of_ne hne
  have hunmistaken := @unmistaken_iff event (by simp [hstatus]) (by simp [hstatus])
  obtain ⟨hlast, hfirst⟩ := exit_of_built hstatus
  obtain ⟨hpath, -⟩ := path_of_built hstatus
  rw [hpath] at hlast hfirst
  rw [handleExpanded_eq event.status event.id_fits, hstatus, hpath]
  dsimp only
  by_cases hseems : event.seemsFlagged = true
  · rw [if_pos (hself.mpr hseems)]
    refine ⟨before, rfl, (tracks_update_iff h (fun _ _ => by rw [hexits]) hother).trans ?_⟩
    rw [hunmistaken, hself, flagged_built_iff]
    constructor
    · intro ⟨_, hflag⟩
      refine ⟨hflag, fun _ hclear => ?_⟩
      rw [hflag.mp hseems] at hclear
      cases hclear
    · intro ⟨hflag, _⟩
      refine ⟨?_, hflag⟩
      rw [hexits, h.exits event.id, hphase, hflag.mp hseems]
      rfl
  · have hclear : event.isFlagged = false :=
      Bool.of_not_eq_true fun hflagged => hseems ((seemsFlagged_iff event).mpr (.inl hflagged))
    have hcut : ExitCut event ↔ '=' ∉ (lastPart ',' (event.hops.getD [])).takeWhile (· ≠ '~') :=
      ⟨fun hevent => hevent hstatus hclear, fun hevent _ _ => hevent⟩
    rw [if_neg fun hmem => hseems (hself.mp hmem), hlast, Option.bind_some, hfirst, Option.bind_some]
    refine ⟨_, rfl, (tracks_update_iff h (fun id hne => ?_) ?_).trans ?_⟩
    · exact (AList.lookup_insert_ne hne).trans (by rw [hexits])
    · exact hother
    · rw [hunmistaken, hself, flagged_built_iff, hcut, ← takeWhile_eq_fingerprint, AList.lookup_insert, hclear,
        Option.bind_some, Phase.exitNode, Option.some.injEq, ExitNode.mk.injEq, and_comm]

-- One event of a life cycle: the listener takes it, and keeps track unless it is mistaken or cuts the exit wrongly.
theorem onCircuitStatus_tracks {circuits after : Circuits} {s : State} (useDebugLogging : Bool)
    (h : Tracks circuits s) (hstep : lifeStep circuits event = some after) :
    ∃ t, onCircuitStatus useDebugLogging event.data s = some t ∧
      (Tracks after t ↔ Unmistaken event ∧ ExitCut event) := by
  obtain ⟨hmBuiltNodes, hon⟩ := onCircuitStatus_eq useDebugLogging event s
  rw [hon]
  have hexit := h.exits event.id
  have hold := h.ignored event.id
  have hother (id : Int) (hne : id ≠ event.id) :
      id ∈ event.ignoredAfter s.ignoredInternalCircuits ↔ id ∈ s.ignoredInternalCircuits :=
    mem_ignoredAfter_of_ne hne
  have hcut (hne : event.status ≠ .built) : ExitCut event := fun hbuilt => absurd hbuilt hne
  obtain ⟨hstatus, hphase, rfl⟩ | ⟨hstatus, hphase, rfl⟩ | ⟨hstatus, hphase, rfl⟩ | ⟨hstatus, hphase, rfl⟩ |
    ⟨hstatus, -, rfl⟩ := lifeStep_cases hstep
  · have hself := @mem_ignoredAfter event s.ignoredInternalCircuits (by simp [hold, hphase])
    rw [handleExpanded_eq event.status event.id_fits, and_iff_left (hcut (by simp [hstatus])),
      unmistaken_iff (by simp [hstatus]) (by simp [hstatus]), hstatus]
    have hkept : s.exitNodeMap.lookup event.id = (some (Phase.launched event.isFlagged)).bind Phase.exitNode := by
      rw [hexit, hphase]
      rfl
    refine ⟨_, rfl, (tracks_update_iff h ?_ ?_).trans ?_⟩
    · exact fun _ _ => rfl
    · exact hother
    · rw [and_iff_right hkept, hself]
      simp [Phase.flagged]
  · have hself := @mem_ignoredAfter event s.ignoredInternalCircuits (by simp [hold, hphase, Phase.flagged])
    rw [handleExpanded_eq event.status event.id_fits, and_iff_left (hcut (by simp [hstatus])),
      unmistaken_iff (by simp [hstatus]) (by simp [hstatus]), hstatus,
      ← Function.update_eq_self event.id after]
    refine ⟨_, rfl, (tracks_update_iff h ?_ ?_).trans ?_⟩
    · exact fun _ _ => rfl
    · exact hother
    · rw [and_iff_right hexit, hself, hphase]
      simp [Phase.flagged]
  · exact built_tracks h hstatus hphase rfl rfl
  · rw [handleExpanded_eq event.status event.id_fits, hstatus]
    refine ⟨_, rfl, iff_of_true ((tracks_update_iff h ?_ ?_).mpr ⟨?_, ?_⟩) (unmistaken_of_ended (.inl hstatus))⟩
    · exact fun _ _ => rfl
    · exact fun id hne => by simp [hne, hother id hne]
    · rw [hexit, hphase]
      rfl
    · simp
  · rw [handleExpanded_eq event.status event.id_fits, hstatus]
    refine ⟨_, rfl, iff_of_true ((tracks_update_iff h ?_ ?_).mpr ⟨?_, ?_⟩) (unmistaken_of_ended (.inr hstatus))⟩
    · exact fun _ hne => AList.lookup_erase_ne hne
    · exact fun id hne => by simp [hne, hother id hne]
    · exact AList.lookup_erase _ _
    · simp

-- The circuits of Tor and the listener, which an exception ends. The log may be on for any event.
def trackStep (state : Circuits × Option State) (event : Bool × CircuitEvent) : Option (Circuits × Option State) :=
  (lifeStep state.1 event.2).map fun circuits =>
    (circuits, state.2.bind (onCircuitStatus event.1 event.2.data))

def Tracked (state : Circuits × Option State) : Prop := ∃ s, state.2 = some s ∧ Tracks state.1 s

theorem tracks_initial : Tracks (fun _ => none) State.initial where
  exits _ := AList.lookup_empty _
  ignored id := by simp [State.initial]

theorem tracked_step {state after : Circuits × Option State} {useDebugLogging : Bool} (h : Tracked state)
    (hstep : trackStep state (useDebugLogging, event) = some after) :
      Tracked after ↔ Unmistaken event ∧ ExitCut event := by
  obtain ⟨circuits, listener⟩ := state
  obtain ⟨s, rfl, htracks⟩ := h
  obtain ⟨next, hnext, rfl⟩ := Option.map_eq_some_iff.mp hstep
  obtain ⟨t, ht, hiff⟩ := onCircuitStatus_tracks useDebugLogging htracks hnext
  rw [← hiff]
  simp [Tracked, ht]

-- The listener keeps track in every state of a run exactly if no line of the run mistakes it and every exit is cut
-- rightly.
theorem always_tracked_iff (events : List (Bool × CircuitEvent)) :
    Always trackStep Tracked (fun _ => none, some State.initial) events ↔
      Allowed trackStep (fun state event => (lifeStep state.1 event.2).isSome = true →
        Unmistaken event.2 ∧ ExitCut event.2)
        (fun _ => none, some State.initial) events := by
  refine always_iff_allowed _ _ ?_ ?_ ⟨_, rfl, tracks_initial⟩
  · rintro state ⟨useDebugLogging, event⟩ after htracked hstep
    obtain ⟨next, hnext, -⟩ := Option.map_eq_some_iff.mp hstep
    rw [tracked_step htracked hstep, Option.isSome_of_eq_some hnext]
    simp
  · rintro state event - hnone
    rw [Option.map_eq_none_iff.mp hnone]
    exact fun h => absurd h (by decide)

-- A circuit of one hop, whose name stands behind =.
def launchedEvent : CircuitEvent where
  id := 7
  status := .launched
  hops := none
  flags := [.needCapacity]
  others := ["PURPOSE=GENERAL".toList]
  id_fits := by decide
  spaceless := forall_mem_of_all (by decide)
  parts := forall_mem_of_all (by decide)
  built := nofun

def builtEvent : CircuitEvent where
  id := 7
  status := .built
  hops := some "$0123456789ABCDEF0123456789ABCDEF01234567=relay".toList
  flags := [.needCapacity]
  others := ["PURPOSE=GENERAL".toList]
  id_fits := by decide
  spaceless := forall_mem_of_all (by decide)
  parts := forall_mem_of_all (by decide)
  built _ := ⟨_, rfl, forall_mem_of_all (by decide)⟩

-- The name is kept as a part of the fingerprint.
theorem not_always_tracked_equals :
    ¬Always trackStep Tracked (fun _ => none, some State.initial) [(false, launchedEvent), (false, builtEvent)] := by
  intro h
  have hlaunched := h.2 _ rfl
  have hbuilt := hlaunched.2 _ rfl
  have hcut := ((@tracked_step builtEvent _ _ false hlaunched.1 rfl).mp hbuilt).2
  exact hcut rfl rfl (by decide +kernel)

end ToInet.Service.OrbotRawEventListener
