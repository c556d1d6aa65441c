import ToInet.Circumvention.SmartConnect.Guard

-- The transports that the guard of one handle tries, in their order.
namespace ToInet.Circumvention.SmartConnect

open ToInet.Lib

-- How many transports may still be tried behind one.
def rank : Transport → Nat
  | .none => 3
  | .snowflake | .snowflakeAmp | .snowflakeSqs => 2
  | .custom => 1
  | _ => 0

-- A start in the loop: the transport, where the start throws, and what runs in front of it and behind it.
structure Attempt where
  transport : Transport
  failsAt : Option Nat
  running : List String
  behind : List String
deriving DecidableEq

def attempt (handle : Nat) (s t : State) : Event → List Attempt
  | .tick other (.startTransport failsAt) =>
      if other = handle then [⟨s.transport, failsAt, s.started, t.started⟩] else []
  | _ => []

def attempts (handle : Nat) : State → List Event → List Attempt
  | _, [] => []
  | s, e :: es => ((s.step e).map fun t => attempt handle s t e ++ attempts handle t es).getD []

-- Nothing of a transport runs.
def Stopped (transport : Transport) (bridges running : List String) : Prop :=
  ∀ name ∈ transport.transportNames bridges, name ∉ running

structure Next (bridges : List String) (last transport : Transport) : Prop where
  mem : transport ∈ [.snowflake, .custom, .obfs4]
  rank : rank transport < rank last
  custom : transport = .custom → bridges ≠ []

-- A start that returns leaves the transport running beside what ran before, and one that throws the names in front.
def Attempt.Starts (bridges : List String) (attempt : Attempt) : Prop :=
  let names := attempt.transport.transportNames bridges
  attempt.behind = attempt.running ++ attempt.failsAt.elim names names.take

-- Each attempt is of a lower rank than the one in front of it, which has been stopped, and starts its transport.
def Descends (bridges : List String) : Transport → List Attempt → Prop
  | _, [] => True
  | last, attempt :: rest =>
      Next bridges last attempt.transport ∧ Stopped last bridges attempt.running ∧ attempt.Starts bridges ∧
        Descends bridges attempt.transport rest

-- A step of the loop.
def loops (handle : Nat) : Event → Bool
  | .tick other event => other = handle ∧ event ≠ .run
  | _ => false

def Event.isStart : Event → Bool
  | .actionStart _ _ _ => true
  | _ => false

def reports (handle : Nat) (s : State) : Nat := deliveries handle s.log + postings handle s.posted

-- The guard as the coroutine of its handle has left it, with no other handle under way.
structure FreshGuard (handle : Nat) (s : State) : Prop where
  activity : s.activity handle = .guard true none
  connectionGuard : s.connectionGuard = some handle
  others : ∀ other, other ≠ handle → s.activity other = .finished
  reports : reports handle s = 0
  crashed : s.crashed = false

-- What can happen while a single guard is there.
inductive Moved (handle : Nat) (s : State) : Event → State → Prop
  | cancel : Moved handle s .cancel s.cancel
  | stopTransport : Moved handle s .stopTransport s.stopTransport
  | updateProgress (progress : Int) : Moved handle s (.updateProgress progress) (s.updateProgress progress)
  | elapse (duration : Nat) : Moved handle s (.elapse duration) { s with now := s.now + duration }
  | deliver (other : Nat) (callback : Callback) (posted : List (Nat × Callback))
      (hposted : s.posted = (other, callback) :: posted) :
      Moved handle s .deliver { s with toControl := { s.note (.deliver other callback) with posted } }
  | completed (hactivity : s.activity handle = .guard true none) :
      Moved handle s (.tick handle .run)
        { s with
          toControl := (s.note (.tick handle)).stopConnectionGuard.post handle .completed
          smartConnect := false }
  | early (hactivity : s.activity handle = .guard true none) : Moved handle s (.tick handle .run) s
  | expired (hactivity : s.activity handle = .guard true none) :
      Moved handle s (.tick handle .run)
        { s.connectionAlive with
          toControl := (s.note (.tick handle)).move handle (.guard true (some .pass)) }
  | stop (live : Bool) (hactivity : s.activity handle = .guard live (some .pass)) (hrank : 0 < rank s.transport) :
      Moved handle s (.tick handle .pass)
        { s.stopTransport with
          toControl := (s.note (.tick handle)).move handle (.guard live (some (.stopped s.transport))) }
  | noMore (live : Bool) (hactivity : s.activity handle = .guard live (some .pass)) (hrank : rank s.transport = 0) :
      Moved handle s (.tick handle .pass)
        { s with
          toControl := (s.note (.tick handle)).stopConnectionGuard.move handle
            (.guard ((s.note (.tick handle)).stopConnectionGuard.activity handle).live (some .giveUp)) }
  | switch (live : Bool) (transport : Transport)
      (hactivity : s.activity handle = .guard live (some (.stopped transport))) :
      Moved handle s (.tick handle .switch)
        { s with
          toControl := (s.note (.switchTransport handle)).move handle (.guard live (some .startTransport))
          transport := s.nextTransport transport }
  | start (live : Bool) (failsAt : Option Nat) (next : Tick)
      (hactivity : s.activity handle = .guard live (some .startTransport))
      (hnext : next = .reconfigure ∨ next = .pass) :
      Moved handle s (.tick handle (.startTransport failsAt))
        { s with
          toControl := (s.note (.tick handle)).move handle (.guard live (some next))
          started := (s.transport.start s.bridgesList failsAt s.started).1 }
  | reconfigure (live succeeds : Bool) (connectionTimeout : Int)
      (hactivity : s.activity handle = .guard live (some .reconfigure)) :
      Moved handle s (.tick handle (.reconfigure succeeds))
        { s with
          toControl := (s.note (.tick handle)).move handle (.guard live none)
          connectionTimeout }
  | report (live : Bool) (hactivity : s.activity handle = .guard live (some .giveUp)) :
      Moved handle s (.tick handle .giveUp)
        { s.stopTransport with
          toControl := ((s.note (.tick handle)).move handle (.guard live none)).post handle .stopTor }

variable {handle : Nat} {s t : State} {e : Event}

theorem stopTransport_none (h : s.transport = .none) : s.stopTransport = s := by
  have hstarted : s.transport.stop s.bridgesList s.started = s.started := by
    rw [h, Transport.stop, List.filter_eq_self]
    exact fun _ _ => rfl
  rw [State.stopTransport, hstarted]

theorem pass_moved {live : Bool} (hactivity : s.activity handle = .guard live (some .pass)) :
    Moved handle s (.tick handle .pass) (s.pass handle live) := by
  have hstop := fun hrank => Moved.stop live hactivity hrank
  have hnoMore := fun hrank => Moved.noMore live hactivity hrank
  unfold State.pass
  dsimp only
  split
  · rename_i htransport
    rw [stopTransport_none htransport] at hstop
    exact hstop (by rw [htransport]; decide)
  · rename_i htransport
    exact hstop (by rw [htransport]; decide)
  · rename_i htransport
    exact hstop (by rw [htransport]; decide)
  · rename_i htransport
    exact hstop (by rw [htransport]; decide)
  · rename_i htransport
    exact hstop (by rw [htransport]; decide)
  · refine hnoMore ?_
    cases h : s.transport <;> first | rfl | exact absurd h ‹_›

theorem stepTick_moved {live : Bool} {tick : Option Tick} {event : TickEvent}
    (hactivity : s.activity handle = .guard live tick) (h : s.stepTick handle live tick event = some t) :
    Moved handle s (.tick handle event) t := by
  unfold State.stepTick at h
  split at h
  · split at h
    · rename_i hlive
      obtain rfl := Option.some.inj h
      subst hlive
      unfold State.runTick
      split
      · exact .completed hactivity
      · split
        · exact .early hactivity
        · exact .expired hactivity
    · cases h
  · obtain rfl := Option.some.inj h
    exact pass_moved hactivity
  · obtain rfl := Option.some.inj h
    exact .switch live _ hactivity
  · obtain rfl := Option.some.inj h
    refine .start live _ _ hactivity ?_
    split
    · exact .inl rfl
    · exact .inr rfl
  · obtain rfl := Option.some.inj h
    exact .reconfigure live _ _ hactivity
  · obtain rfl := Option.some.inj h
    exact .report live hactivity
  · cases h

-- No other handle runs anything, and the coroutine of this one is done.
structure Alone (handle : Nat) (s : State) : Prop where
  others : ∀ other, other ≠ handle → s.activity other = .finished
  coroutine : ∀ statement, s.activity handle ≠ .coroutine statement

theorem step_moved (hs : Alone handle s) (he : e.isStart = false) (h : s.step e = some t) : Moved handle s e t := by
  have hnone (other : Nat) (statement : Coroutine) : s.activity other ≠ .coroutine statement := by
    by_cases hother : other = handle
    · rw [hother]
      exact hs.coroutine statement
    · rw [hs.others other hother]
      exact nofun
  unfold State.step at h
  split at h
  · cases h
  · cases e with
    | actionStart failsAt connected exception => cases he
    | cancel => exact Option.some.inj h ▸ .cancel
    | stopTransport => exact Option.some.inj h ▸ .stopTransport
    | updateProgress progress => exact Option.some.inj h ▸ .updateProgress progress
    | elapse duration => exact Option.some.inj h ▸ .elapse duration
    | coroutine other event =>
        dsimp only at h
        split at h
        · exact absurd ‹_› (hnone other _)
        · cases h
    | tick other event =>
        dsimp only at h
        split at h
        · rename_i live tick hactivity
          obtain rfl : other = handle := by
            by_contra hother
            rw [hs.others other hother] at hactivity
            cases hactivity
          exact stepTick_moved hactivity h
        · cases h
    | deliver =>
        dsimp only at h
        split at h
        · rename_i other callback posted hposted
          exact Option.some.inj h ▸ .deliver other callback posted hposted
        · cases h

-- Where the guard stands, with the transport that it has tried last.
def At (last : Transport) (bridges : List String) (s : State) : Activity → Prop
  | .guard _ (some (.stopped transport)) =>
      transport = last ∧ s.transport = last ∧ 0 < rank last ∧ Stopped last bridges s.started
  | .guard _ (some .startTransport) => Next bridges last s.transport ∧ Stopped last bridges s.started
  | .guard live (some .giveUp) => live = false ∧ s.transport = last ∧ rank last = 0
  | _ => s.transport = last

structure Phase (handle : Nat) (last : Transport) (bridges : List String) (s : State) : Prop where
  alone : Alone handle s
  guard : (s.activity handle).live = true → s.connectionGuard = some handle
  stored : s.bridgesList = bridges
  stands : At last bridges s (s.activity handle)

variable {last : Transport} {bridges : List String}

theorem at_cancel {activity : Activity} (h : At last bridges s activity) : At last bridges s activity.cancel := by
  rcases activity with _ | _ | ⟨live, _ | tick⟩
  · exact h
  · exact h
  · exact h
  · cases tick with
    | giveUp => exact ⟨rfl, h.2⟩
    | _ => exact h

theorem at_mono {activity : Activity} (h : At last bridges s activity) (htransport : t.transport = s.transport)
    (hstarted : t.started ⊆ s.started) : At last bridges t activity := by
  have hstopped (h : Stopped last bridges s.started) : Stopped last bridges t.started :=
    fun name hname hmem => h name hname (hstarted hmem)
  rcases activity with _ | _ | ⟨live, _ | tick⟩
  · exact htransport.trans h
  · exact htransport.trans h
  · exact htransport.trans h
  · cases tick with
    | stopped transport => exact ⟨h.1, htransport.trans h.2.1, h.2.2.1, hstopped h.2.2.2⟩
    | startTransport => exact ⟨htransport ▸ h.1, hstopped h.2⟩
    | giveUp => exact ⟨h.1, htransport.trans h.2.1, h.2.2⟩
    | _ => exact htransport.trans h

namespace Phase

-- The guard is left alone.
theorem keep (hs : Phase handle last bridges s) (hactivity : t.activity = s.activity)
    (hguard : t.connectionGuard = s.connectionGuard) (hbridges : t.bridges = s.bridges)
    (htransport : t.transport = s.transport) (hstarted : t.started ⊆ s.started) : Phase handle last bridges t where
  alone := ⟨hactivity ▸ hs.alone.others, hactivity ▸ hs.alone.coroutine⟩
  guard := by rw [hactivity, hguard]; exact hs.guard
  stored := by rw [← hs.stored, State.bridgesList, State.bridgesList, hbridges]
  stands := hactivity ▸ at_mono hs.stands htransport hstarted

-- The guard goes on.
theorem advance (hs : Phase handle last bridges s) {after : Activity} {next : Transport}
    (hactivity : t.activity = Function.update s.activity handle after) (hguard : t.connectionGuard = s.connectionGuard)
    (hafter : ∀ statement, after ≠ .coroutine statement)
    (hlive : after.live = true → (s.activity handle).live = true) (hbridges : t.bridges = s.bridges)
    (hat : At next bridges t after) : Phase handle next bridges t := by
  have hself : t.activity handle = after := by rw [hactivity, Function.update_self]
  have hother (other : Nat) (hne : other ≠ handle) : t.activity other = s.activity other := by
    rw [hactivity, Function.update_of_ne hne]
  exact
    { alone := ⟨fun other hne => (hother other hne).trans (hs.alone.others other hne),
        fun statement => hself ▸ hafter statement⟩
      guard := fun h => hguard.trans (hs.guard (hlive (hself ▸ h)))
      stored := by rw [← hs.stored, State.bridgesList, State.bridgesList, hbridges]
      stands := hself.symm ▸ hat }

theorem stopConnectionGuard_activity (hs : Phase handle last bridges s) :
    s.stopConnectionGuard.activity handle = (s.activity handle).cancel := by
  cases hlive : (s.activity handle).live with
  | true =>
      rw [Control.stopConnectionGuard, hs.guard hlive]
      exact Function.update_self _ _ _
  | false =>
      obtain hsame | hcancel := stopConnectionGuard_cases s.toControl handle
      · rw [hsame]
        cases hactivity : s.activity handle with
        | guard live tick =>
            rw [hactivity] at hlive
            obtain rfl : live = false := hlive
            rfl
        | _ => rfl
      · exact hcancel

theorem stopConnectionGuard_live (hs : Phase handle last bridges s) :
    (s.stopConnectionGuard.activity handle).live = false := by
  rw [hs.stopConnectionGuard_activity, cancel_live]

-- The guard is cancelled; a tick goes on.
theorem cancelled (hs : Phase handle last bridges s) (hactivity : t.activity = s.stopConnectionGuard.activity)
    (hbridges : t.bridges = s.bridges) (htransport : t.transport = s.transport) (hstarted : t.started = s.started) :
    Phase handle last bridges t where
  alone :=
    { others := fun other hne => by
        rw [hactivity]
        obtain hsame | hcancel := stopConnectionGuard_cases s.toControl other
        · rw [hsame, hs.alone.others other hne]
        · rw [hcancel, hs.alone.others other hne]
          rfl
      coroutine := fun statement => by
        rw [hactivity, hs.stopConnectionGuard_activity]
        cases hbefore : s.activity handle with
        | coroutine other => exact absurd hbefore (hs.alone.coroutine other)
        | _ => exact nofun }
  guard := fun h => by
    rw [hactivity, hs.stopConnectionGuard_live] at h
    cases h
  stored := by rw [← hs.stored, State.bridgesList, State.bridgesList, hbridges]
  stands := by
    rw [hactivity, hs.stopConnectionGuard_activity]
    exact at_cancel (at_mono hs.stands htransport (hstarted ▸ List.Subset.refl _))

end Phase

theorem note_stopConnectionGuard (c : Control) (effect : Effect) :
    (c.note effect).stopConnectionGuard = c.stopConnectionGuard.note effect := by
  unfold Control.stopConnectionGuard
  cases h : c.connectionGuard <;> simp [Control.note, Control.move, h]

-- The transport that has been tried last, behind a step.
def lastBehind (last : Transport) : List Attempt → Transport
  | [] => last
  | attempt :: _ => attempt.transport

theorem next_nextTransport (hrank : 0 < rank last) : Next s.bridgesList last (s.nextTransport last) := by
  have hsnowflake (h : rank last = 2) :
      Next s.bridgesList last (if s.bridgesList ≠ [] then .custom else .obfs4) := by
    split
    · rename_i hbridges
      exact ⟨by simp, by rw [h]; decide, fun _ => hbridges⟩
    · exact ⟨by simp, by rw [h]; decide, nofun⟩
  cases last with
  | none => exact ⟨by simp [State.nextTransport], Nat.lt_succ_self _, nofun⟩
  | snowflake => exact hsnowflake rfl
  | snowflakeAmp => exact hsnowflake rfl
  | snowflakeSqs => exact hsnowflake rfl
  | custom => exact ⟨by simp [State.nextTransport], Nat.lt_succ_self _, nofun⟩
  | _ => cases hrank

theorem stopped_stop (hs : s.bridgesList = bridges) (htransport : s.transport = last) :
    Stopped last bridges s.stopTransport.started := by
  intro name hname hmem
  have hnot := (List.mem_filter.mp hmem).2
  rw [hs, htransport] at hnot
  exact of_decide_eq_true hnot hname

theorem moved_phase (hs : Phase handle last bridges s) (h : Moved handle s e t) :
    Phase handle (lastBehind last (attempt handle s t e)) bridges t := by
  have hat := hs.stands
  cases h with
  | cancel => exact hs.cancelled rfl rfl rfl rfl
  | stopTransport => exact hs.keep rfl rfl rfl rfl Transport.stop_subset
  | updateProgress progress =>
      unfold State.updateProgress
      split
      · exact hs.keep rfl rfl rfl rfl (List.Subset.refl _)
      · exact hs
  | elapse duration => exact hs.keep rfl rfl rfl rfl (List.Subset.refl _)
  | deliver other callback posted hposted => exact hs.keep rfl rfl rfl rfl (List.Subset.refl _)
  | completed hactivity =>
      refine hs.cancelled ?_ rfl rfl rfl
      rw [note_stopConnectionGuard]
      rfl
  | early hactivity => exact hs
  | expired hactivity =>
      rw [hactivity] at hat
      exact hs.advance rfl rfl nofun (fun _ => by rw [hactivity]; rfl) rfl hat
  | stop live hactivity hrank =>
      rw [hactivity] at hat
      refine hs.advance rfl rfl nofun (fun h => by rw [hactivity]; exact h) rfl ⟨hat, hat, hat ▸ hrank, ?_⟩
      exact stopped_stop hs.stored hat
  | noMore live hactivity hrank =>
      rw [hactivity] at hat
      have hcancelled :
          Phase handle last bridges { s with toControl := (s.note (.tick handle)).stopConnectionGuard } := by
        refine hs.cancelled ?_ rfl rfl rfl
        rw [note_stopConnectionGuard]
        rfl
      have hlive : ((s.note (.tick handle)).stopConnectionGuard.activity handle).live = false := by
        rw [note_stopConnectionGuard]
        exact hs.stopConnectionGuard_live
      rw [hlive]
      exact hcancelled.advance rfl rfl nofun nofun rfl ⟨rfl, hat, hat ▸ hrank⟩
  | switch live transport hactivity =>
      rw [hactivity] at hat
      obtain ⟨rfl, htransport, hrank, hstopped⟩ := hat
      refine hs.advance rfl rfl nofun (fun h => by rw [hactivity]; exact h) rfl ⟨?_, hstopped⟩
      rw [← hs.stored]
      exact next_nextTransport hrank
  | start live failsAt next hactivity hnext =>
      rw [attempt, if_pos rfl]
      refine hs.advance rfl rfl nofun (fun h => by rw [hactivity]; exact h) rfl ?_
      obtain rfl | rfl := hnext <;> rfl
  | reconfigure live succeeds connectionTimeout hactivity =>
      rw [hactivity] at hat
      exact hs.advance rfl rfl nofun (fun h => by rw [hactivity]; exact h) rfl hat
  | report live hactivity =>
      rw [hactivity] at hat
      exact hs.advance rfl rfl nofun (fun h => by rw [hactivity]; exact h) rfl hat.2.1

-- How many steps of the loop may still come.
def work (s : State) : Activity → Nat
  | .guard true none | .guard _ (some .pass) => 5 * rank s.transport + 2
  | .guard _ (some (.stopped _)) => 5 * rank s.transport + 1
  | .guard _ (some .startTransport) => 5 * rank s.transport + 4
  | .guard _ (some .reconfigure) => 5 * rank s.transport + 3
  | .guard _ (some .giveUp) => 1
  | _ => 0

theorem work_cancel (s : State) (activity : Activity) : work s activity.cancel ≤ work s activity := by
  rcases activity with _ | _ | ⟨live, _ | tick⟩
  · exact Nat.le_refl _
  · exact Nat.le_refl _
  · exact Nat.zero_le _
  · cases live <;> cases tick <;> exact Nat.le_refl _

theorem work_moved (hs : Phase handle last bridges s) (h : Moved handle s e t) :
    work t (t.activity handle) + (if loops handle e then 1 else 0) ≤ work s (s.activity handle) := by
  have hat := hs.stands
  have hcancelled : work s (s.stopConnectionGuard.activity handle) ≤ work s (s.activity handle) :=
    hs.stopConnectionGuard_activity ▸ work_cancel s _
  cases h with
  | cancel => exact hcancelled
  | stopTransport => exact Nat.le_refl _
  | updateProgress progress =>
      unfold State.updateProgress
      split <;> exact Nat.le_refl _
  | elapse duration => exact Nat.le_refl _
  | deliver other callback posted hposted => exact Nat.le_refl _
  | completed hactivity =>
      rw [note_stopConnectionGuard]
      have hloops : loops handle (.tick handle .run) = false := by simp [loops]
      rw [hloops, if_neg Bool.false_ne_true]
      exact hcancelled
  | early hactivity => simp [loops]
  | expired hactivity =>
      simp only [Control.move, Function.update_self, hactivity]
      simp [work, loops, State.connectionAlive]
  | stop live hactivity hrank =>
      simp only [Control.move, Function.update_self, hactivity]
      simp [work, loops, State.stopTransport]
  | noMore live hactivity hrank =>
      simp only [Control.move, Function.update_self, hactivity]
      simp [work, loops, hrank]
  | switch live transport hactivity =>
      rw [hactivity] at hat
      obtain ⟨rfl, rfl, hrank, _⟩ := hat
      have hnext := (@next_nextTransport s _ hrank).rank
      simp only [Control.move, Function.update_self, hactivity]
      simp [work, loops]
      omega
  | start live failsAt next hactivity hnext =>
      simp only [Control.move, Function.update_self, hactivity]
      obtain rfl | rfl := hnext <;> simp [work, loops]
  | reconfigure live succeeds connectionTimeout hactivity =>
      simp only [Control.move, Function.update_self, hactivity]
      cases live <;> simp [work, loops]
  | report live hactivity =>
      rw [hactivity] at hat
      obtain ⟨rfl, _⟩ := hat
      simp only [Control.post, Control.move, Function.update_self, hactivity]
      simp [work, loops]

theorem countP_loops (hs : Phase handle last bridges s) {es : List Event} (hes : ∀ e ∈ es, e.isStart = false)
    (hrun : run State.step s es = some t) :
    es.countP (loops handle) + work t (t.activity handle) ≤ work s (s.activity handle) := by
  induction es generalizing s last with
  | nil =>
      obtain rfl := Option.some.inj hrun
      rw [List.countP_nil, Nat.zero_add]
  | cons e es ih =>
      obtain ⟨u, hu, hrest⟩ := run_cons_eq_some.mp hrun
      have hmoved := step_moved hs.alone (hes e List.mem_cons_self) hu
      have hlater := ih (moved_phase hs hmoved) (fun e' he' => hes e' (List.mem_cons_of_mem _ he')) hrest
      have hstep := work_moved hs hmoved
      rw [List.countP_cons]
      omega

theorem starts (hs : s.bridgesList = bridges) (hnext : Next bridges last s.transport) {failsAt : Option Nat} :
    Attempt.Starts bridges
      ⟨s.transport, failsAt, s.started, (s.transport.start s.bridgesList failsAt s.started).1⟩ := by
  have hmem := hnext.mem
  have hsqs : s.transport ≠ .snowflakeSqs := by
    intro htransport
    rw [htransport] at hmem
    simp at hmem
  rw [hs, Transport.start, if_neg hsqs]
  cases failsAt <;> rfl

theorem attempts_descend (hs : Phase handle last bridges s) {es : List Event} (hes : ∀ e ∈ es, e.isStart = false)
    (hrun : run State.step s es = some t) : Descends bridges last (attempts handle s es) := by
  induction es generalizing s last with
  | nil => trivial
  | cons e es ih =>
      obtain ⟨u, hu, hrest⟩ := run_cons_eq_some.mp hrun
      have hmoved := step_moved hs.alone (hes e List.mem_cons_self) hu
      have hlater := ih (moved_phase hs hmoved) (fun e' he' => hes e' (List.mem_cons_of_mem _ he')) hrest
      rw [attempts, hu, Option.map_some, Option.getD_some]
      cases hmoved with
      | start live failsAt next hactivity hnext =>
          rw [attempt, if_pos rfl] at hlater ⊢
          have hat := hs.stands
          rw [hactivity] at hat
          exact ⟨hat.1, hat.2, starts hs.stored hat.1, hlater⟩
      | _ => exact hlater

theorem stopConnectionGuard_log (c : Control) : c.stopConnectionGuard.log = c.log := by
  unfold Control.stopConnectionGuard
  split <;> rfl

theorem stopConnectionGuard_posted (c : Control) : c.stopConnectionGuard.posted = c.posted := by
  unfold Control.stopConnectionGuard
  split <;> rfl

theorem reports_deliver {other : Nat} {callback : Callback} {posted : List (Nat × Callback)}
    (hposted : s.posted = (other, callback) :: posted) :
    reports handle { s with toControl := { s.note (.deliver other callback) with posted } } = reports handle s := by
  have hdeliveries := deliveries_deliver other handle callback s.log
  have hpostings := postings_cons other handle callback posted
  unfold reports
  rw [hposted, hpostings]
  simp only [Control.note, hdeliveries]
  omega

theorem owed_cancel (activity : Activity) : owed activity.cancel ≤ owed activity := by
  rcases activity with _ | _ | ⟨live, _ | tick⟩
  · exact Nat.le_refl _
  · exact Nat.le_refl _
  · exact Nat.zero_le _
  · cases live <;> exact Nat.le_refl _

theorem owed_tick (live : Bool) (tick : Tick) : owed (.guard live (some tick)) = 1 := by
  cases live <;> rfl

-- A tick that runs on behind its guard is about to give up.
def Uncancelled (activity : Activity) : Prop := ∀ tick, activity = .guard false (some tick) → tick = .giveUp

theorem Uncancelled.live {live : Bool} {tick : Tick} (h : Uncancelled (.guard live (some tick)))
    (htick : tick ≠ .giveUp) (after : Option Tick) : Uncancelled (.guard live after) := by
  cases live with
  | true => exact nofun
  | false => exact absurd (h tick rfl) htick

-- What a handle has posted and still owes.
def callbacks (handle : Nat) (s : State) : Nat := reports handle s + owed (s.activity handle)

theorem updateProgress_control (s : State) (progress : Int) : (s.updateProgress progress).toControl = s.toControl := by
  unfold State.updateProgress
  split <;> rfl

-- A step from one place of a tick to another.
theorem callbacks_tick {live : Bool} {tick after : Tick} (hbefore : s.activity handle = .guard live (some tick))
    (htick : tick ≠ .giveUp) (hactivity : t.activity = Function.update s.activity handle (.guard live (some after)))
    (hreports : reports handle t = reports handle s) :
    callbacks handle t = callbacks handle s ∧ (Uncancelled (s.activity handle) → Uncancelled (t.activity handle)) := by
  have hself : t.activity handle = .guard live (some after) := by rw [hactivity, Function.update_self]
  rw [callbacks, callbacks, hself, hbefore, hreports, owed_tick, owed_tick]
  exact ⟨rfl, fun h => h.live htick _⟩

theorem reports_post (c : Control) (callback : Callback) :
    deliveries handle (c.post handle callback).log + postings handle (c.post handle callback).posted =
      deliveries handle c.log + postings handle c.posted + 1 := by
  have hpostings := postings_append handle handle callback c.posted
  rw [if_pos rfl] at hpostings
  rw [Control.post, hpostings, Nat.add_assoc]

theorem reports_stopConnectionGuard (effect : Effect) (heffect : effect.delivers handle = false) :
    deliveries handle (s.note effect).stopConnectionGuard.log +
        postings handle (s.note effect).stopConnectionGuard.posted = reports handle s := by
  rw [note_stopConnectionGuard]
  simp only [Control.note, stopConnectionGuard_log, stopConnectionGuard_posted, deliveries]
  rw [List.countP_cons_of_neg (by rw [heffect]; decide)]
  rfl

-- What a step makes of the callbacks of the handle: one is posted by what ends the handle, and only
-- a cancel, or a tick behind one, ends it without.
theorem callbacks_moved (hs : Phase handle last bridges s) (h : Moved handle s e t) :
    callbacks handle t ≤ callbacks handle s ∧
    (e ≠ .cancel → Uncancelled (s.activity handle) →
      callbacks handle t = callbacks handle s ∧ Uncancelled (t.activity handle)) := by
  have hat := hs.stands
  -- Where nothing is lost, only the guard remains to be seen to.
  have hkeep (h : callbacks handle t = callbacks handle s ∧
      (Uncancelled (s.activity handle) → Uncancelled (t.activity handle))) :
      callbacks handle t ≤ callbacks handle s ∧
      (e ≠ .cancel → Uncancelled (s.activity handle) →
        callbacks handle t = callbacks handle s ∧ Uncancelled (t.activity handle)) :=
    ⟨Nat.le_of_eq h.1, fun _ huncancelled => ⟨h.1, h.2 huncancelled⟩⟩
  cases h with
  | cancel =>
      refine ⟨?_, fun h => absurd rfl h⟩
      have hreports : reports handle s.cancel = reports handle s := by
        rw [State.cancel, ← note_stopConnectionGuard]
        exact reports_stopConnectionGuard .cancel rfl
      have hactivity : s.cancel.activity handle = (s.activity handle).cancel := hs.stopConnectionGuard_activity
      rw [callbacks, hreports, hactivity]
      exact Nat.add_le_add_left (owed_cancel _) _
  | stopTransport => exact hkeep ⟨rfl, id⟩
  | updateProgress progress =>
      rw [callbacks, reports, updateProgress_control] at hkeep ⊢
      exact hkeep ⟨rfl, id⟩
  | elapse duration => exact hkeep ⟨rfl, id⟩
  | deliver other callback posted hposted =>
      exact hkeep ⟨congrArg (· + owed (s.activity handle)) (reports_deliver hposted), id⟩
  | completed hactivity =>
      have hself : (s.note (.tick handle)).stopConnectionGuard.activity handle = .guard false none := by
        rw [note_stopConnectionGuard]
        exact hs.stopConnectionGuard_activity.trans (by rw [hactivity]; rfl)
      refine hkeep ⟨?_, fun _ => ?_⟩
      · refine (congrArg₂ (· + ·) (reports_post _ _) (congrArg owed hself)).trans ?_
        rw [reports_stopConnectionGuard _ rfl, callbacks, hactivity]
        rfl
      · intro tick htick
        cases hself.symm.trans htick
  | early hactivity => exact hkeep ⟨rfl, id⟩
  | expired hactivity =>
      have hself : ((s.note (.tick handle)).move handle (.guard true (some .pass))).activity handle =
          .guard true (some .pass) := Function.update_self _ _ _
      refine hkeep ⟨?_, fun _ tick htick => nomatch hself.symm.trans htick⟩
      rw [callbacks, callbacks, hactivity]
      exact (congrArg (reports handle s + ·) (congrArg owed hself)).trans rfl
  | stop live hactivity hrank => exact hkeep (callbacks_tick hactivity nofun rfl rfl)
  | noMore live hactivity hrank =>
      have hlive : ((s.note (.tick handle)).stopConnectionGuard.activity handle).live = false := by
        rw [note_stopConnectionGuard]
        exact hs.stopConnectionGuard_live
      rw [hlive] at hkeep ⊢
      have hself :
          ((s.note (.tick handle)).stopConnectionGuard.move handle (.guard false (some .giveUp))).activity handle =
            .guard false (some .giveUp) := Function.update_self _ _ _
      refine hkeep ⟨?_, fun _ tick htick => ?_⟩
      · rw [callbacks, callbacks, hactivity, owed_tick]
        exact congrArg₂ (· + ·) (reports_stopConnectionGuard _ rfl) (congrArg owed hself)
      · exact (Option.some.inj (Activity.guard.inj (hself.symm.trans htick)).2).symm
  | switch live transport hactivity => exact hkeep (callbacks_tick hactivity nofun rfl rfl)
  | start live failsAt next hactivity hnext => exact hkeep (callbacks_tick hactivity nofun rfl rfl)
  | reconfigure live succeeds connectionTimeout hactivity =>
      have hself : ((s.note (.tick handle)).move handle (.guard live none)).activity handle = .guard live none :=
        Function.update_self _ _ _
      have hcallbacks : callbacks handle s = reports handle s + 1 := by rw [callbacks, hactivity, owed_tick]
      cases live with
      | true =>
          refine hkeep ⟨?_, fun _ tick htick => nomatch hself.symm.trans htick⟩
          rw [hcallbacks]
          exact congrArg₂ (· + ·) rfl (congrArg owed hself)
      | false =>
          refine ⟨?_, fun _ h => nomatch h .reconfigure hactivity⟩
          rw [hcallbacks]
          exact (Nat.le_of_eq (congrArg₂ (· + ·) rfl (congrArg owed hself))).trans (Nat.le_succ _)
  | report live hactivity =>
      rw [hactivity] at hat
      obtain ⟨rfl, _⟩ := hat
      have hself : (((s.note (.tick handle)).move handle (.guard false none)).post handle .stopTor).activity handle =
          .guard false none := Function.update_self _ _ _
      refine hkeep ⟨?_, fun _ tick htick => nomatch hself.symm.trans htick⟩
      rw [callbacks, callbacks, hactivity, owed_tick]
      exact (congrArg₂ (· + ·) (reports_post _ _) (congrArg owed hself)).trans rfl

theorem run_phase (hs : Phase handle last bridges s) {es : List Event} (hes : ∀ e ∈ es, e.isStart = false)
    (hrun : run State.step s es = some t) :
    (∃ next, Phase handle next bridges t) ∧ callbacks handle t ≤ callbacks handle s ∧
      (.cancel ∉ es → Uncancelled (s.activity handle) → callbacks handle t = callbacks handle s) := by
  induction es generalizing s last with
  | nil =>
      obtain rfl := Option.some.inj hrun
      exact ⟨⟨last, hs⟩, Nat.le_refl _, fun _ _ => rfl⟩
  | cons e es ih =>
      obtain ⟨u, hu, hrest⟩ := run_cons_eq_some.mp hrun
      have hmoved := step_moved hs.alone (hes e List.mem_cons_self) hu
      obtain ⟨hphase, hle, hsame⟩ :=
        ih (moved_phase hs hmoved) (fun e' he' => hes e' (List.mem_cons_of_mem _ he')) hrest
      obtain ⟨hle', hsame'⟩ := callbacks_moved hs hmoved
      refine ⟨hphase, hle.trans hle', fun hcancel huncancelled => ?_⟩
      obtain ⟨hstep, hlive⟩ := hsame' (fun h => hcancel (h ▸ List.mem_cons_self)) huncancelled
      exact (hsame (fun h => hcancel (List.mem_cons_of_mem _ h)) hlive).trans hstep

theorem FreshGuard.phase (hs : FreshGuard handle s) : Phase handle s.transport s.bridgesList s where
  alone := ⟨hs.others, fun _ h => nomatch hs.activity.symm.trans h⟩
  guard := fun _ => hs.connectionGuard
  stored := rfl
  stands := hs.activity.symm ▸ rfl

theorem attempts_eq_nil {es : List Event} (h : ∀ e ∈ es, loops handle e = false) : attempts handle s es = [] := by
  induction es generalizing s with
  | nil => rfl
  | cons e es ih =>
      have hattempt (t : State) : attempt handle s t e = [] := by
        unfold attempt
        split
        · rename_i other failsAt
          rw [if_neg]
          rintro rfl
          have hloops := h _ List.mem_cons_self
          simp [loops] at hloops
        · rfl
      rw [attempts]
      cases s.step e with
      | none => rfl
      | some t =>
          rw [Option.map_some, Option.getD_some, hattempt, List.nil_append]
          exact ih fun e' he' => h e' (List.mem_cons_of_mem _ he')

theorem work_of_ended {activity : Activity} (h : activity.ended = true) : work s activity = 0 := by
  rcases activity with _ | _ | ⟨live, _ | tick⟩
  · rfl
  · cases h
  · cases live with
    | true => cases h
    | false => rfl
  · cases live <;> cases h

-- A handle that has ended is not woken.
theorem attempts_of_ended (hs : Phase handle last bridges s) (hended : (s.activity handle).ended = true)
    {es : List Event} (hes : ∀ e ∈ es, e.isStart = false) (hrun : run State.step s es = some t) :
    attempts handle s es = [] := by
  have hcount := countP_loops hs hes hrun
  rw [work_of_ended hended, Nat.le_zero, Nat.add_eq_zero_iff, List.countP_eq_zero] at hcount
  exact attempts_eq_nil fun e he => Bool.of_not_eq_true (hcount.1 e he)

theorem moved_crashed (h : Moved handle s e t) : t.crashed = s.crashed := by
  cases h with
  | updateProgress progress =>
      unfold State.updateProgress
      split <;> rfl
  | _ => rfl

-- The loop of a tick can always go on.
theorem tick_enabled {live : Bool} {tick : Tick} (hcrashed : s.crashed = false)
    (hactivity : s.activity handle = .guard live (some tick)) :
    ∃ event u, event ≠ .run ∧ s.step (.tick handle event) = some u := by
  have hstep (event : TickEvent) : s.step (.tick handle event) = s.stepTick handle live (some tick) event := by
    simp [State.step, hcrashed, hactivity]
  cases tick with
  | pass => exact ⟨.pass, _, nofun, hstep .pass⟩
  | stopped transport => exact ⟨.switch, _, nofun, hstep .switch⟩
  | startTransport => exact ⟨.startTransport none, _, nofun, hstep _⟩
  | reconfigure => exact ⟨.reconfigure true, _, nofun, hstep _⟩
  | giveUp => exact ⟨.giveUp, _, nofun, hstep _⟩

theorem run_crashed (hs : Phase handle last bridges s) {es : List Event} (hes : ∀ e ∈ es, e.isStart = false)
    (hrun : run State.step s es = some t) : t.crashed = s.crashed := by
  induction es generalizing s last with
  | nil => exact Option.some.inj hrun ▸ rfl
  | cons e es ih =>
      obtain ⟨u, hu, hrest⟩ := run_cons_eq_some.mp hrun
      have hmoved := step_moved hs.alone (hes e List.mem_cons_self) hu
      have hlater := ih (moved_phase hs hmoved) (fun e' he' => hes e' (List.mem_cons_of_mem _ he')) hrest
      exact hlater.trans (moved_crashed hmoved)

theorem owed_eq_zero_iff (activity : Activity) : owed activity = 0 ↔ activity.ended = true := by
  unfold owed
  split <;> simp_all

-- The coroutine leaves such a guard.
theorem createGuard_fresh (hothers : ∀ other, other ≠ handle → s.activity other = .finished)
    (hactivity : s.activity handle = .coroutine .createGuard) (hreports : reports handle s = 0)
    (h : s.step (.coroutine handle .createGuard) = some t) : FreshGuard handle t := by
  cases hcrashed : s.crashed with
  | true =>
      rw [State.step, if_pos hcrashed] at h
      cases h
  | false =>
      rw [State.step, if_neg (by rw [hcrashed]; exact Bool.false_ne_true)] at h
      simp only [hactivity, State.stepCoroutine, Option.some.injEq] at h
      subst h
      exact
        { activity := Function.update_self _ _ _
          connectionGuard := rfl
          others := fun other hne => (Function.update_of_ne hne _ _).trans (hothers other hne)
          reports := hreports
          crashed := hcrashed }

-- Snowflake does not connect. The custom bridge fails to start, OBFS4 is started in the same tick, and connects.
def twoTries : List Event :=
  [.tick 0 .run, .tick 0 .pass, .tick 0 .switch, .tick 0 (.startTransport (some 0)), .tick 0 .pass, .tick 0 .switch,
    .tick 0 (.startTransport none), .tick 0 (.reconfigure true), .updateProgress 100, .tick 0 .run, .deliver]

def loneGuard : State :=
  { State.initial .snowflake "obfs4 a:1 F" 30 0 with
    activity := Function.update (fun _ => .finished) 0 (.guard true none), connectionGuard := some 0
    started := ["snowflake"] }

theorem loneGuard_fresh : FreshGuard 0 loneGuard where
  activity := rfl
  connectionGuard := rfl
  others := fun other hne => by simp [loneGuard, hne]
  reports := rfl
  crashed := rfl

end ToInet.Circumvention.SmartConnect
