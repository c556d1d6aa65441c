import ToInet.Circumvention.SmartConnect.Guard

namespace ToInet.Circumvention.SmartConnect

open ToInet.Lib

-- The transports that run all belong to the one that is stored.
def StartedStored (s : State) : Prop := s.started ⊆ s.transport.transportNames s.bridgesList

-- The same, where the tunnel that AutoConf has open may be left apart.
def StartedApart (apart : Prop) (s : State) : Prop :=
  ∀ name ∈ s.started, name ∈ s.transport.transportNames s.bridgesList ∨
    apart ∧ name = meekLite ∧ ∃ handle, s.activity handle = .coroutine .moat

-- The bridges that setBridges leaves.
def bridgesAfter (s : State) (custom : List String) : List String :=
  bridgesList (if custom = [] then s.bridges else storedBridges custom)

-- What AutoConf leaves running belongs to the transport that it chooses, with the bridges in
-- front of setBridges and behind it.
def Fits (s : State) (event : CoroutineEvent) : Prop :=
  s.afterAutoConf event ⊆ (State.chosen event).1.transportNames s.bridgesList ∧
    s.afterAutoConf event ⊆
      (State.chosen event).1.transportNames (bridgesAfter s (State.chosen event).2)

-- ACTION_START comes when nothing of an earlier one goes on, the tunnel is one of the stored
-- transport unless it is left apart, and AutoConf chooses a transport that fits what runs.
def Confirmed (apart : Prop) (s : State) : Event → Prop
  | .actionStart _ _ _ => ∀ handle, (s.activity handle).ended = true
  | .coroutine _ .openTunnel => apart ∨ meekLite ∈ s.transport.transportNames s.bridgesList
  | .coroutine _ (.autoConf conf) => Fits s (.autoConf conf)
  | .coroutine _ .autoConfThrows => Fits s .autoConfThrows
  | _ => True

-- What an activity relies on: what runs will belong to the transport once its bridges are
-- set, and nothing runs inside the branch of a stopped transport.
def Relies (s : State) : Activity → Prop
  | .coroutine (.setBridges custom) => s.started ⊆ s.transport.transportNames (bridgesAfter s custom)
  | .guard _ (some (.stopped _)) => s.started = []
  | _ => True

structure Kept (apart : Prop) (s : State) : Prop where
  stored : StartedApart apart s
  relies : ∀ handle, Relies s (s.activity handle)
  one : ∀ handle other, (s.activity handle).ended = false → (s.activity other).ended = false →
    handle = other

variable {apart : Prop} {s t : State}

theorem startedApart_of_stored (h : StartedStored s) : StartedApart apart s :=
  fun _ hname => .inl (h hname)

theorem StartedApart.stored (h : StartedApart apart s)
    (htunnel : apart → ∀ handle, s.activity handle ≠ .coroutine .moat) : StartedStored s := by
  intro name hname
  obtain hstored | ⟨hapart, _, handle, hmoat⟩ := h name hname
  · exact hstored
  · exact absurd hmoat (htunnel hapart handle)

theorem initial_kept (transport : Transport) (bridges : String) (smartConnectTimeout now : Int) :
    Kept apart (.initial transport bridges smartConnectTimeout now) where
  stored := nofun
  relies := fun _ => trivial
  one := nofun

theorem relies_of_ended {activity : Activity} (h : activity.ended = true) : Relies s activity := by
  cases activity with
  | finished => trivial
  | coroutine statement => cases h
  | guard live tick =>
      cases tick with
      | none => trivial
      | some tick => cases live <;> cases h

theorem relies_cancel {activity : Activity} (h : Relies s activity) : Relies s activity.cancel := by
  cases activity with
  | finished => exact h
  | coroutine statement => exact h
  | guard live tick =>
      cases tick with
      | none => exact h
      | some tick => cases tick <;> exact h

theorem relies_mono {activity : Activity} (h : Relies s activity) (hstarted : t.started ⊆ s.started)
    (htransport : t.transport = s.transport) (hbridges : t.bridges = s.bridges) : Relies t activity := by
  unfold Relies at h ⊢
  split
  · rw [bridgesAfter, htransport, hbridges]
    exact List.Subset.trans hstarted h
  · exact List.subset_nil.mp (h ▸ hstarted)
  · trivial

theorem stopConnectionGuard_ended (c : Control) (handle : Nat) (h : (c.activity handle).ended = true) :
    (c.stopConnectionGuard.activity handle).ended = true := by
  obtain hsame | hcancelled := stopConnectionGuard_cases c handle
  · rw [hsame]
    exact h
  · rw [hcancelled]
    exact (continues_cancel _).ended h

theorem ne_moat_of_ended {activity : Activity} (h : activity.ended = true) :
    activity ≠ .coroutine .moat := by
  rintro rfl
  cases h

theorem stored_of_ended (h : StartedApart apart s)
    (hended : ∀ handle, (s.activity handle).ended = true) : StartedStored s :=
  h.stored fun _ handle => ne_moat_of_ended (hended handle)

namespace Kept

theorem others (hs : Kept apart s) {handle : Nat} (h : (s.activity handle).ended = false)
    (other : Nat) (hne : other ≠ handle) : (s.activity other).ended = true := by
  by_contra hother
  exact hne (hs.one other handle (Bool.not_eq_true _ ▸ hother) h)

-- Where the handle that goes on is not inside AutoConf, no tunnel is open.
theorem storedAt (hs : Kept apart s) {handle : Nat} (h : (s.activity handle).ended = false)
    (hmoat : s.activity handle ≠ .coroutine .moat) : StartedStored s := by
  apply hs.stored.stored
  intro _ other
  by_cases hother : other = handle
  · rw [hother]
    exact hmoat
  · exact ne_moat_of_ended (hs.others h other hother)

-- Only one handle can go on, so only its statement counts.
theorem only {before : Nat → Activity} {handle : Nat} {after : Activity}
    (hothers : ∀ other, other ≠ handle → (before other).ended = true)
    (hactivity : t.activity = Function.update before handle after) (hstored : StartedApart apart t)
    (hrelies : Relies t after) : Kept apart t := by
  have hended (other : Nat) (hne : other ≠ handle) : (t.activity other).ended = true := by
    rw [hactivity, Function.update_of_ne hne]
    exact hothers other hne
  have heq (other : Nat) (h : (t.activity other).ended = false) : other = handle := by
    by_contra hne
    rw [hended other hne] at h
    cases h
  refine ⟨hstored, fun other => ?_, fun first second hfirst hsecond => ?_⟩
  · by_cases hother : other = handle
    · rw [hother, hactivity, Function.update_self]
      exact hrelies
    · exact relies_of_ended (hended other hother)
  · rw [heq first hfirst, heq second hsecond]

-- The handle that goes on takes a step.
theorem act (hs : Kept apart s) {handle : Nat} {after : Activity}
    (h : (s.activity handle).ended = false)
    (hactivity : t.activity = Function.update s.activity handle after) (hstored : StartedStored t)
    (hrelies : Relies t after) : Kept apart t :=
  only (hs.others h) hactivity (startedApart_of_stored hstored) hrelies

-- It opens the tunnel.
theorem openTunnel (hs : Kept apart s) {handle : Nat} (h : (s.activity handle).ended = false)
    (hstored : StartedStored s)
    (htunnel : apart ∨ meekLite ∈ s.transport.transportNames s.bridgesList) :
    Kept apart { s with
      toControl := s.move handle (.coroutine .moat), started := s.started ++ [meekLite] } := by
  refine only (hs.others h) rfl (fun name hname => ?_) trivial
  obtain hname | hname := List.mem_append.mp hname
  · exact .inl (hstored hname)
  · obtain rfl := List.mem_singleton.mp hname
    obtain hapart | hmeek := htunnel
    · exact .inr ⟨hapart, rfl, handle, Function.update_self ..⟩
    · exact .inl hmeek

-- It ends AutoConf.
theorem endAutoConf (hs : Kept apart s) {handle : Nat} (h : (s.activity handle).ended = false)
    {event : CoroutineEvent} (hfits : Fits s event) : Kept apart (s.endAutoConf handle event) :=
  hs.act h rfl hfits.1 hfits.2

-- Nothing starts, and handles are at most cancelled.
theorem shrink (hs : Kept apart s) (hstarted : t.started ⊆ s.started)
    (htransport : t.transport = s.transport) (hbridges : t.bridges = s.bridges)
    (hactivity : ∀ handle, t.activity handle = s.activity handle ∨
      t.activity handle = (s.activity handle).cancel) : Kept apart t := by
  refine ⟨fun name hname => ?_, fun handle => ?_, fun first second hfirst hsecond => ?_⟩
  · rw [State.bridgesList, htransport, hbridges]
    obtain hstored | ⟨hapart, htunnel, handle, hmoat⟩ := hs.stored name (hstarted hname)
    · exact .inl hstored
    · refine .inr ⟨hapart, htunnel, handle, ?_⟩
      have hhandle := hactivity handle
      rw [hmoat] at hhandle
      exact hhandle.elim id id
  · apply relies_mono _ hstarted htransport hbridges
    obtain hsame | hcancelled := hactivity handle
    · rw [hsame]
      exact hs.relies handle
    · rw [hcancelled]
      exact relies_cancel (hs.relies handle)
  · have hended (handle : Nat) (h : (t.activity handle).ended = false) :
        (s.activity handle).ended = false := by
      rw [← Bool.not_eq_true] at h ⊢
      intro hbefore
      obtain hsame | hcancelled := hactivity handle
      · exact h (hsame ▸ hbefore)
      · exact h (hcancelled ▸ (continues_cancel _).ended hbefore)
    exact hs.one first second (hended first hfirst) (hended second hsecond)

end Kept

theorem crash_kept : Kept apart s.crash where
  stored := nofun
  relies := fun _ => trivial
  one := nofun

theorem handle_kept (exception : Bool) (hstored : StartedStored s)
    (hended : ∀ handle, (s.activity handle).ended = true) : Kept apart (s.handle exception) := by
  unfold State.handle
  split
  · exact Kept.only (fun other _ => hended other) rfl (startedApart_of_stored hstored) trivial
  · exact Kept.only (fun other _ => hended other) rfl (startedApart_of_stored hstored) trivial

theorem actionStart_kept (failsAt : Option Nat) (connected exception : Bool) (hs : Kept apart s)
    (hended : ∀ handle, (s.activity handle).ended = true) :
    Kept apart (s.actionStart failsAt connected exception) := by
  unfold State.actionStart
  split
  · exact crash_kept
  · rename_i hstart
    obtain rfl := (Prod.mk.inj hstart).1
    have hstored := Transport.start_subset failsAt (stored_of_ended hs.stored hended)
    cases connected with
    | true =>
        exact ⟨startedApart_of_stored hstored, fun handle => relies_of_ended (hended handle), hs.one⟩
    | false => exact handle_kept exception hstored hended

theorem stepCoroutine_kept {handle : Nat} {statement : Coroutine} {event : CoroutineEvent}
    (hs : Kept apart s) (hactivity : s.activity handle = .coroutine statement)
    (hevent : Confirmed apart s (.coroutine handle event))
    (h : s.stepCoroutine handle statement event = some t) : Kept apart t := by
  have hended : (s.activity handle).ended = false := by rw [hactivity]; rfl
  have hstored (hmoat : statement ≠ .moat) : StartedStored s := by
    apply hs.storedAt hended
    rw [hactivity]
    exact fun heq => hmoat (Activity.coroutine.inj heq)
  unfold State.stepCoroutine at h
  split at h
  · obtain rfl := Option.some.inj h
    exact hs.openTunnel hended (hstored nofun) hevent
  · obtain rfl := Option.some.inj h
    exact hs.endAutoConf hended hevent
  · obtain rfl := Option.some.inj h
    exact hs.endAutoConf hended hevent
  · obtain rfl := Option.some.inj h
    exact hs.endAutoConf hended hevent
  · obtain rfl := Option.some.inj h
    have hrelies := hs.relies handle
    rw [hactivity] at hrelies
    exact hs.act hended rfl hrelies trivial
  · split at h
    · obtain rfl := Option.some.inj h
      exact crash_kept
    · rename_i hstart
      obtain rfl := (Prod.mk.inj hstart).1
      obtain rfl := Option.some.inj h
      exact hs.act hended rfl (Transport.start_subset _ (hstored nofun)) trivial
  · split at h
    · obtain rfl := Option.some.inj h
      exact hs.act hended rfl (hstored nofun) trivial
    · obtain rfl := Option.some.inj h
      exact hs.act hended rfl (hstored nofun) trivial
  · obtain rfl := Option.some.inj h
    exact hs.act hended rfl (hstored nofun) trivial
  · cases h

theorem runTick_kept {handle : Nat} (hs : Kept apart s)
    (hactivity : s.activity handle = .guard true none) : Kept apart (s.runTick handle) := by
  have hended : (s.activity handle).ended = false := not_ended_of_live (by rw [hactivity]; rfl)
  have hstored : StartedStored s := hs.storedAt hended (by rw [hactivity]; nofun)
  unfold State.runTick
  split
  · exact hs.shrink (List.Subset.refl _) rfl rfl (stopConnectionGuard_cases (s.note (.tick handle)))
  · split
    · exact hs
    · exact hs.act hended rfl hstored trivial

theorem pass_kept {handle : Nat} {live : Bool} (hs : Kept apart s)
    (hactivity : s.activity handle = .guard live (some .pass)) : Kept apart (s.pass handle live) := by
  have hended : (s.activity handle).ended = false := not_ended_of_ticking (by rw [hactivity]; rfl)
  have hstored : StartedStored s := hs.storedAt hended (by rw [hactivity]; nofun)
  have hstopped : Kept apart { s.stopTransport with
      toControl := (s.note (.tick handle)).move handle (.guard live (some (.stopped s.transport))) } :=
    hs.act hended rfl (List.Subset.trans Transport.stop_subset hstored) (Transport.stop_eq_nil hstored)
  unfold State.pass
  dsimp only
  split
  · rename_i htransport
    have hnone := hstored
    rw [StartedStored, htransport] at hnone
    exact hs.act hended rfl hstored (List.subset_nil.mp hnone)
  · exact hstopped
  · exact hstopped
  · exact hstopped
  · exact hstopped
  · refine Kept.only (fun other hne => ?_) rfl (startedApart_of_stored hstored) trivial
    exact stopConnectionGuard_ended _ other (hs.others hended other hne)

theorem stepTick_kept {handle : Nat} {live : Bool} {tick : Option Tick} {event : TickEvent}
    (hs : Kept apart s) (hactivity : s.activity handle = .guard live tick)
    (h : s.stepTick handle live tick event = some t) : Kept apart t := by
  have hticking (htick : tick.isSome = true) : (s.activity handle).ended = false :=
    not_ended_of_ticking (by rw [hactivity]; exact htick)
  have hstored (htick : tick.isSome = true) : StartedStored s :=
    hs.storedAt (hticking htick) (by rw [hactivity]; nofun)
  have hrelies := hs.relies handle
  rw [hactivity] at hrelies
  unfold State.stepTick at h
  split at h
  · split at h
    · rename_i hlive
      obtain rfl := Option.some.inj h
      subst hlive
      exact runTick_kept hs hactivity
    · cases h
  · obtain rfl := Option.some.inj h
    exact pass_kept hs hactivity
  · obtain rfl := Option.some.inj h
    have hnone : s.started = [] := hrelies
    refine hs.act (hticking rfl) rfl ?_ trivial
    rw [StartedStored, hnone]
    exact List.nil_subset _
  · obtain rfl := Option.some.inj h
    refine hs.act (hticking rfl) rfl (Transport.start_subset _ (hstored rfl)) ?_
    cases (s.startTransport _).2 <;> trivial
  · obtain rfl := Option.some.inj h
    exact hs.act (hticking rfl) rfl (hstored rfl) trivial
  · obtain rfl := Option.some.inj h
    exact hs.act (hticking rfl) rfl (List.Subset.trans Transport.stop_subset (hstored rfl)) trivial
  · cases h

theorem step_kept (s : State) (event : Event) (t : State) (hs : Kept apart s)
    (hevent : Confirmed apart s event) (h : s.step event = some t) : Kept apart t := by
  unfold State.step at h
  split at h
  · cases h
  cases event with
  | actionStart failsAt connected exception =>
      obtain rfl := Option.some.inj h
      exact actionStart_kept failsAt connected exception hs hevent
  | cancel =>
      obtain rfl := Option.some.inj h
      exact hs.shrink (List.Subset.refl _) rfl rfl (stopConnectionGuard_cases s.toControl)
  | stopTransport =>
      obtain rfl := Option.some.inj h
      exact hs.shrink Transport.stop_subset rfl rfl fun _ => .inl rfl
  | updateProgress progress =>
      obtain rfl := Option.some.inj h
      unfold State.updateProgress
      split
      · exact hs.shrink (List.Subset.refl _) rfl rfl fun _ => .inl rfl
      · exact hs
  | elapse duration =>
      obtain rfl := Option.some.inj h
      exact hs.shrink (List.Subset.refl _) rfl rfl fun _ => .inl rfl
  | coroutine handle event =>
      dsimp only at h
      split at h
      · rename_i hactivity
        exact stepCoroutine_kept hs hactivity hevent h
      · cases h
  | tick handle event =>
      dsimp only at h
      split at h
      · rename_i hactivity
        exact stepTick_kept hs hactivity h
      · cases h
  | deliver =>
      dsimp only at h
      split at h
      · obtain rfl := Option.some.inj h
        exact hs.shrink (List.Subset.refl _) rfl rfl fun _ => .inl rfl
      · cases h

-- The condition on the end of AutoConf is exact: without it, what runs is not what is stored,
-- at once or when the bridges are set.
theorem fits_iff {handle : Nat} {event : CoroutineEvent}
    (h : s.step (.coroutine handle event) = some (s.endAutoConf handle event)) :
    Fits s event ↔ ∃ t u, s.step (.coroutine handle event) = some t ∧
      t.step (.coroutine handle .setBridges) = some u ∧ StartedStored t ∧ StartedStored u := by
  have hrunning : s.crashed ≠ true := by
    intro hcrashed
    rw [State.step, if_pos hcrashed] at h
    cases h
  have hset : (s.endAutoConf handle event).step (.coroutine handle .setBridges) =
      some { s.endAutoConf handle event with
        toControl := (s.endAutoConf handle event).move handle (.coroutine .startTransport)
        bridges := if (State.chosen event).2 = [] then s.bridges
          else storedBridges (State.chosen event).2 } := by
    simp [State.step, State.endAutoConf, hrunning, Control.move, State.stepCoroutine]
  constructor
  · intro hfits
    exact ⟨_, _, h, hset, hfits.1, hfits.2⟩
  · rintro ⟨t, u, ht, hu, hstored, hafter⟩
    obtain rfl := Option.some.inj (h.symm.trans ht)
    obtain rfl := Option.some.inj (hset.symm.trans hu)
    exact ⟨hstored, hafter⟩

-- So is the condition on the tunnel.
theorem openTunnel_iff {handle : Nat} (hs : StartedStored s)
    (hactivity : s.activity handle = .coroutine .autoConf) (hrunning : s.crashed ≠ true) :
    meekLite ∈ s.transport.transportNames s.bridgesList ↔
      ∃ t, s.step (.coroutine handle .openTunnel) = some t ∧ StartedStored t := by
  have hopen : s.step (.coroutine handle .openTunnel) = some { s with
      toControl := s.move handle (.coroutine .moat), started := s.started ++ [meekLite] } := by
    simp [State.step, hrunning, hactivity, State.stepCoroutine]
  constructor
  · intro hmeek
    refine ⟨_, hopen, List.append_subset.mpr ⟨hs, fun name hname => ?_⟩⟩
    obtain rfl := List.mem_singleton.mp hname
    exact hmeek
  · rintro ⟨t, ht, hstored⟩
    obtain rfl := Option.some.inj (hopen.symm.trans ht)
    exact (List.append_subset.mp hstored).2 List.mem_cons_self

-- In every run in which one ACTION_START is handled after the other and AutoConf confirms what
-- runs, whatever is stored, however the transports fail and however often a tick falls
-- back: what runs belongs to the stored transport, the tunnel of AutoConf apart.
theorem run_startedApart (transport : Transport) (bridges : String) (smartConnectTimeout now : Int)
    (events : List Event) (s : State)
    (hevents : Allowed State.step (Confirmed True)
      (.initial transport bridges smartConnectTimeout now) events)
    (hrun : run State.step (.initial transport bridges smartConnectTimeout now) events = some s) :
    StartedApart True s :=
  have hs : Kept True s := run_induction_allowed (Kept True) (Confirmed True) step_kept
    (initial_kept transport bridges smartConnectTimeout now) hevents hrun
  hs.stored

-- Where the tunnel is one of the stored transport as well, nothing is apart.
theorem run_startedStored (transport : Transport) (bridges : String) (smartConnectTimeout now : Int)
    (events : List Event) (s : State)
    (hevents : Allowed State.step (Confirmed False)
      (.initial transport bridges smartConnectTimeout now) events)
    (hrun : run State.step (.initial transport bridges smartConnectTimeout now) events = some s) :
    StartedStored s :=
  have hs : Kept False s := run_induction_allowed (Kept False) (Confirmed False) step_kept
    (initial_kept transport bridges smartConnectTimeout now) hevents hrun
  hs.stored.stored nofun

-- meek is stored, which runs under the name of the tunnel.
theorem run_startedStored_sample :
    ∃ s, run State.step (.initial .meek "" 30 0) (.actionStart none false false :: fallbackRun 0) = some s ∧
      StartedStored s := by
  obtain ⟨s, hs⟩ := Option.isSome_iff_exists.mp (show (run State.step (.initial .meek "" 30 0)
    (.actionStart none false false :: fallbackRun 0)).isSome = true by decide)
  have hrest (t : State) : Allowed State.step (Confirmed False) t ((fallbackRun 0).drop 2) := by
    apply allowed_of_forall
    intro event hevent t
    cases event with
    | actionStart failsAt connected exception => simp [fallbackRun, connectRun] at hevent
    | coroutine handle event =>
        cases event with
        | openTunnel => simp [fallbackRun, connectRun] at hevent
        | autoConf conf => simp [fallbackRun, connectRun] at hevent
        | autoConfThrows => simp [fallbackRun, connectRun] at hevent
        | _ => trivial
    | _ => trivial
  have hevents : Allowed State.step (Confirmed False) (.initial .meek "" 30 0)
      (.actionStart none false false :: fallbackRun 0) := by
    refine ⟨fun _ => rfl, fun t ht => ?_⟩
    obtain rfl := Option.some.inj ht
    refine ⟨.inr List.mem_cons_self, fun t ht => ?_⟩
    obtain rfl := Option.some.inj ht
    exact ⟨⟨List.nil_subset _, List.nil_subset _⟩, fun t _ => hrest t⟩
  exact ⟨s, hs, run_startedStored .meek "" 30 0 _ s hevents hs⟩

-- obfs4 is stored and runs when AutoConf finds that no transport is needed.
theorem run_not_startedStored :
    ∃ s, run State.step (.initial .obfs4 "" 30 0)
        [.actionStart none false false, .coroutine 0 .openTunnel,
          .coroutine 0 (.autoConf (some (.none, [])))] = some s ∧
      ¬StartedStored s := by
  refine ⟨_, rfl, fun h => ?_⟩
  exact absurd (h List.mem_cons_self) (by decide)

end ToInet.Circumvention.SmartConnect
