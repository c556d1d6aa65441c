import ToInet.Byedpi.ByeDpiProxyService.Theorems
import ToInet.Rehabilitator.MainProcess
import ToInet.Rehabilitator.RehabilitatorService.Theorems

namespace ToInet.Rehabilitator.MainProcess

open ToInet.Byedpi ToInet.Lib

-- A call of main() that a job is inside of.
def Holds (p : MainProcess) (main : Main Party) : Prop :=
  match main.caller with
  | .byedpi => ∃ job, (p.byedpi.jobs job).phase = .main main
  | .rehabilitator => ∃ job, (p.rehabilitator.jobs job).phase = .main main

structure Isolated (p : MainProcess) : Prop where
  kept : ByeDpiProxyService.Kept .byedpi p.byedpi p.lib
  native : ByeDpiProxyService.Native p.byedpi
  numbered : p.rehabilitator.Numbered
  lib : p.lib.Numbered
  exclusive : p.byedpi.status = .disconnected ∨ p.rehabilitator.Idle
  owned : p.lib.gProxyRunning = true → ∃ main, p.lib.serverFd = some main ∧ Holds p main
  shut : ∀ caller main, (caller, main) ∈ p.lib.shut → main.caller = caller

theorem initial_isolated : Isolated initial where
  kept := ByeDpiProxyService.initial_kept
  native := ByeDpiProxyService.initial_native
  numbered := RehabilitatorService.initial_numbered
  lib := NativeLib.initial_numbered
  exclusive := .inl rfl
  owned := nofun
  shut := nofun

variable {p q : MainProcess} {main : Main Party}

-- While the flag is set, the socket belongs to the service that is in use.
theorem Isolated.caller_of_byedpi (h : Isolated p) (hbyedpi : p.byedpi.status ≠ .disconnected)
    (hrunning : p.lib.gProxyRunning = true) (hfd : p.lib.serverFd = some main) : main.caller = .byedpi := by
  obtain ⟨other, hother, hholds⟩ := h.owned hrunning
  obtain rfl := Option.some.inj (hother.symm.trans hfd)
  obtain hdisconnected | hidle := h.exclusive
  · exact absurd hdisconnected hbyedpi
  · cases hcaller : other.caller with
    | byedpi => rfl
    | rehabilitator =>
        rw [Holds, hcaller] at hholds
        obtain ⟨job, hmain⟩ := hholds
        rw [hidle.jobs job] at hmain
        cases hmain

theorem Isolated.caller_of_rehabilitator (h : Isolated p) (hbyedpi : p.byedpi.status = .disconnected)
    (hrunning : p.lib.gProxyRunning = true) (hfd : p.lib.serverFd = some main) :
    main.caller = .rehabilitator := by
  obtain ⟨other, hother, hholds⟩ := h.owned hrunning
  obtain rfl := Option.some.inj (hother.symm.trans hfd)
  cases hcaller : other.caller with
  | byedpi =>
      rw [Holds, hcaller] at hholds
      obtain ⟨job, hmain⟩ := hholds
      rw [(h.kept.done_of_disconnected hbyedpi job).2] at hmain
      cases hmain
  | rehabilitator => rfl

-- What a service does to the library shuts down no socket but its own.
def ShutsOwn (me : Party) (lib next : NativeLib Party) : Prop :=
  next.shut = lib.shut ∨ next = lib.jniStopProxy me ∧
    ∀ main, lib.gProxyRunning = true → lib.serverFd = some main → main.caller = me

variable {me : Party} {lib next : NativeLib Party}

theorem ShutsOwn.isShut (h : ShutsOwn me lib next) (hcaller : main.caller ≠ me) (hmain : next.isShut main = true) :
    lib.isShut main = true := by
  obtain hsame | ⟨rfl, hown⟩ := h
  · rw [NativeLib.isShut_congr hsame] at hmain
    exact hmain
  · obtain hold | ⟨hrunning, hfd⟩ := (NativeLib.isShut_jniStopProxy main).mp hmain
    · exact hold
    · exact absurd (hown main hrunning hfd) hcaller

theorem ShutsOwn.caller (h : ShutsOwn me lib next)
    (hlib : ∀ caller main, (caller, main) ∈ lib.shut → main.caller = caller) :
    ∀ caller main, (caller, main) ∈ next.shut → main.caller = caller := by
  obtain hsame | ⟨rfl, hown⟩ := h
  · rw [hsame]
    exact hlib
  · intro caller main hmem
    unfold NativeLib.jniStopProxy at hmem
    split at hmem
    · rename_i hrunning
      obtain hnew | hold := List.mem_append.mp hmem
      · obtain ⟨other, hfd, hsame⟩ := List.mem_map.mp hnew
        obtain ⟨rfl, rfl⟩ := Prod.mk.inj hsame
        exact hown other hrunning (Option.mem_toList.mp hfd)
      · exact hlib caller main hold
    · exact hlib caller main hmem

theorem step_byedpi {event : ByeDpiProxyService.Event} (hstep : p.step (.byedpi event) = some q) :
    p.byedpi.step .byedpi p.lib event = some (q.byedpi, q.lib) ∧ q.rehabilitator = p.rehabilitator := by
  obtain ⟨⟨s, lib⟩, hmoves, rfl⟩ := Option.map_eq_some_iff.mp hstep
  exact ⟨hmoves, rfl⟩

theorem step_rehabilitator {event : RehabilitatorService.Event} (hstep : p.step (.rehabilitator event) = some q) :
    p.rehabilitator.step .rehabilitator p.lib event = some (q.rehabilitator, q.lib) ∧ q.byedpi = p.byedpi ∧
      p.rehabilitator.mainStopped p.lib event = true := by
  obtain ⟨hstopped, hstep⟩ := Option.ite_none_right_eq_some.mp hstep
  obtain ⟨⟨s, lib⟩, hmoves, rfl⟩ := Option.map_eq_some_iff.mp hstep
  exact ⟨hmoves, rfl, hstopped⟩

namespace Isolated

theorem shutsOwn_byedpi (h : Isolated p) {event : ByeDpiProxyService.Event} (hseparate : Separate p (.byedpi event))
    (hstep : p.byedpi.step .byedpi p.lib event = some (q.byedpi, q.lib)) : ShutsOwn .byedpi p.lib q.lib := by
  obtain ⟨_, hsame | ⟨hstop, hconnected | rfl⟩⟩ | ⟨_, main, _, hstart, _⟩ | ⟨_, main, _, _, hreturns⟩ :=
    ByeDpiProxyService.step_lib h.kept hstep
  · exact .inl (congrArg NativeLib.shut hsame)
  · exact .inr ⟨hstop, fun main => h.caller_of_byedpi hconnected⟩
  · cases hseparate.2.1
  · exact .inl (NativeLib.jniStartProxy_eq_some hstart).2.2.1
  · rw [hreturns]
    exact .inl rfl

theorem shutsOwn_rehabilitator (h : Isolated p) {event : RehabilitatorService.Event}
    (hstep : p.rehabilitator.step .rehabilitator p.lib event = some (q.rehabilitator, q.lib)) :
    ShutsOwn .rehabilitator p.lib q.lib := by
  obtain ⟨_, hsame | ⟨hstop, stop, start, hstopping⟩⟩ | ⟨_, main, hstart, _⟩ | ⟨_, main, _, hreturns⟩ :=
    RehabilitatorService.step_lib h.numbered hstep
  · exact .inl (congrArg NativeLib.shut hsame)
  · refine .inr ⟨hstop, fun main => ?_⟩
    obtain hdisconnected | hidle := h.exclusive
    · exact h.caller_of_rehabilitator hdisconnected
    · have hfalse := hidle.stops stop
      rw [hstopping] at hfalse
      exact hfalse.elim
  · exact .inl (NativeLib.jniStartProxy_eq_some hstart).2.2.1
  · rw [hreturns]
    exact .inl rfl

-- The job of ByeDpiProxyService finds the library free.
theorem clear_of_begun (h : Isolated p) {job : Nat} (hbegun : (p.byedpi.jobs job).phase = .begun) :
    p.lib.gProxyRunning = false := by
  rw [← Bool.not_eq_true]
  intro hrunning
  have hdone : (p.byedpi.jobs job).phase ≠ .done := by
    rw [hbegun]
    nofun
  obtain ⟨main, hfd, hholds⟩ := h.owned hrunning
  have hconnected : p.byedpi.status ≠ .disconnected :=
    fun hstatus => hdone (h.kept.done_of_disconnected hstatus job).2
  rw [Holds, h.caller_of_byedpi hconnected hrunning hfd] at hholds
  obtain ⟨other, hmain⟩ := hholds
  have hsame := (h.kept.proxyJob_of_ne_done (by rw [hmain]; nofun)).symm.trans (h.kept.proxyJob_of_ne_done hdone)
  obtain rfl := Option.some.inj hsame
  rw [hbegun] at hmain
  cases hmain

theorem byedpi (h : Isolated p) {event : ByeDpiProxyService.Event} (hseparate : Separate p (.byedpi event))
    (hstep : p.step (.byedpi event) = some q) : Isolated q := by
  obtain ⟨hmoves, hrehabilitator⟩ := step_byedpi hstep
  refine
    { kept := ByeDpiProxyService.step_kept h.kept h.lib (fun job _ => h.clear_of_begun) hmoves
      native := ByeDpiProxyService.step_native h.kept h.native ?_ hmoves
      numbered := hrehabilitator ▸ h.numbered
      lib := ByeDpiProxyService.step_numbered h.kept h.lib hmoves
      exclusive := ?_
      owned := fun hrunning => ?_
      shut := (h.shutsOwn_byedpi hseparate hmoves).caller h.shut }
  · rintro rfl
    cases hseparate.2.1
  · rw [hrehabilitator]
    cases hstart : event.isStart with
    | true =>
        cases event with
        | onStart preferences => exact .inr hseparate.2.2
        | _ => cases hstart
    | false =>
        exact h.exclusive.imp_left fun hstatus =>
          ByeDpiProxyService.step_disconnected h.kept hstatus hstart hmoves
  · obtain ⟨hkeeps, hsame | ⟨hstop, _⟩⟩ | ⟨job, main, _, hstart, hmain⟩ | ⟨_, main, _, _, hreturns⟩ :=
      ByeDpiProxyService.step_lib h.kept hmoves
    · rw [hsame] at hrunning ⊢
      obtain ⟨main, hfd, hholds⟩ := h.owned hrunning
      refine ⟨main, hfd, ?_⟩
      unfold Holds at hholds ⊢
      split at hholds
      · obtain ⟨job, hmain⟩ := hholds
        exact ⟨job, hkeeps job main hmain⟩
      · rw [hrehabilitator]
        exact hholds
    · rw [hstop, NativeLib.jniStopProxy_gProxyRunning] at hrunning
      cases hrunning
    · obtain ⟨hcaller, hfd, _⟩ := NativeLib.jniStartProxy_eq_some hstart
      refine ⟨main, hfd, ?_⟩
      rw [Holds, hcaller, hmain]
      refine ⟨job, ?_⟩
      simp only [ByeDpiProxyService.setPhase, ByeDpiProxyService.setJob, Function.update_self]
      exact congrArg Phase.main hcaller
    · rw [hreturns] at hrunning
      cases hrunning

theorem rehabilitator (h : Isolated p) {event : RehabilitatorService.Event}
    (hseparate : Separate p (.rehabilitator event)) (hstep : p.step (.rehabilitator event) = some q) :
    Isolated q := by
  obtain ⟨hmoves, hbyedpi, _⟩ := step_rehabilitator hstep
  have hown := h.shutsOwn_rehabilitator hmoves
  refine
    { kept := hbyedpi ▸ h.kept.mono fun main hcaller => hown.isShut (by rw [hcaller]; nofun)
      native := hbyedpi ▸ h.native
      numbered := RehabilitatorService.step_numbered h.numbered hmoves
      lib := RehabilitatorService.step_lib_numbered h.numbered h.lib hmoves
      exclusive := ?_
      owned := fun hrunning => ?_
      shut := hown.caller h.shut }
  · rw [hbyedpi]
    by_cases hstart : event = .onStart
    · exact .inl (hseparate.2 hstart)
    · exact h.exclusive.imp_right fun hidle => RehabilitatorService.step_idle hidle hstart hmoves
  · obtain ⟨hkeeps, hsame | ⟨hstop, _⟩⟩ | ⟨job, main, hstart, hmain⟩ | ⟨_, main, _, hreturns⟩ :=
      RehabilitatorService.step_lib h.numbered hmoves
    · rw [hsame] at hrunning ⊢
      obtain ⟨main, hfd, hholds⟩ := h.owned hrunning
      refine ⟨main, hfd, ?_⟩
      unfold Holds at hholds ⊢
      split at hholds
      · rw [hbyedpi]
        exact hholds
      · obtain ⟨job, hmain⟩ := hholds
        exact ⟨job, hkeeps job main hmain⟩
    · rw [hstop, NativeLib.jniStopProxy_gProxyRunning] at hrunning
      cases hrunning
    · obtain ⟨hcaller, hfd, _⟩ := NativeLib.jniStartProxy_eq_some hstart
      refine ⟨main, hfd, ?_⟩
      rw [Holds, hcaller]
      rw [hcaller] at hmain
      exact ⟨job, hmain⟩
    · rw [hreturns] at hrunning
      cases hrunning

end Isolated

theorem step_isolated (p : MainProcess) (event : Event) (q : MainProcess) (h : Isolated p)
    (hseparate : Separate p event) (hstep : p.step event = some q) : Isolated q := by
  cases event with
  | byedpi event => exact h.byedpi hseparate hstep
  | rehabilitator event => exact h.rehabilitator hseparate hstep

-- A service that has been started, and not stopped since.
def Engaged (p : MainProcess) : Party → Prop
  | .byedpi => ByeDpiProxyService.Lively p.byedpi
  | .rehabilitator => ∃ start, RehabilitatorService.Underway .rehabilitator False start p.rehabilitator p.lib

theorem start_engaged (h : Isolated p) {event : Event} {party : Party} (hstart : event.isStartOf party = true)
    (hseparate : Separate p event) (hstep : p.step event = some q) : Engaged q party := by
  cases party with
  | byedpi =>
      cases event with
      | byedpi event =>
          cases event with
          | onStart preferences =>
              obtain ⟨hmoves, _⟩ := step_byedpi hstep
              obtain ⟨hfinished, rfl, _⟩ := hseparate
              exact (ByeDpiProxyService.step_intent_lively_iff h.kept rfl hmoves).mpr ⟨rfl, hfinished, .inr nofun⟩
          | _ => cases hstart
      | rehabilitator event => cases hstart
  | rehabilitator =>
      cases event with
      | byedpi event => cases hstart
      | rehabilitator event =>
          obtain rfl : event = .onStart := of_decide_eq_true hstart
          exact ⟨_, .inl (RehabilitatorService.step_onStart (step_rehabilitator hstep).1)⟩

theorem step_engaged (h : Isolated p) {event : Event} {party : Party} (hintent : event.isIntentOf party = false)
    (hseparate : Separate p event) (hstep : p.step event = some q) (hengaged : Engaged p party) :
    Engaged q party := by
  cases party with
  | byedpi =>
      cases event with
      | byedpi event =>
          exact (ByeDpiProxyService.step_lively_iff h.kept hintent (step_byedpi hstep).1).mpr hengaged
      | rehabilitator event =>
          rw [Engaged, (step_rehabilitator hstep).2.1]
          exact hengaged
  | rehabilitator =>
      obtain ⟨start, hunderway⟩ := hengaged
      cases event with
      | byedpi event =>
          obtain ⟨hmoves, hrehabilitator⟩ := step_byedpi hstep
          refine ⟨start, hrehabilitator ▸ hunderway.mono fun main hcaller => ?_⟩
          exact (h.shutsOwn_byedpi hseparate hmoves).isShut (by rw [hcaller]; nofun)
      | rehabilitator event =>
          obtain ⟨hmoves, _, hstopped⟩ := step_rehabilitator hstep
          refine ⟨start, RehabilitatorService.step_underway hunderway h.numbered h.lib hintent hseparate.1 ?_ hmoves⟩
          rw [hstopped]
          exact fun hopen => absurd hopen (by decide)

theorem listening_byedpi (h : Isolated p) (hengaged : Engaged p .byedpi) (hquiescent : Quiescent p) :
    Listening p .byedpi := by
  obtain ⟨hconnected, hjoining⟩ := hengaged
  have hsome : p.byedpi.proxyJob.isSome = true := by
    obtain ⟨_, hsome⟩ | ⟨hdisconnected, _⟩ := h.kept.status
    · exact hsome
    · rw [hconnected] at hdisconnected
      cases hdisconnected
  obtain ⟨job, hproxy⟩ := Option.isSome_iff_exists.mp hsome
  obtain ⟨_, hphase⟩ := h.kept.alive hjoining job hproxy
  cases hjob : p.byedpi.jobs job with
  | mk router phase cancelled =>
      rw [hjob] at hphase
      cases phase with
      | launched =>
          have hnone := hquiescent (.byedpi (.dispatch job)) (fun party => by cases party <;> rfl)
          simp [step, ByeDpiProxyService.step, hjob] at hnone
      | looping => exact absurd (congrArg Byedpi.Job.phase hjob) (h.native job).2
      | begun =>
          have hnone := hquiescent (.byedpi (.enter job)) (fun party => by cases party <;> rfl)
          simp only [step, ByeDpiProxyService.step, hjob] at hnone
          split at hnone <;> cases hnone
      | main main => exact ⟨job, main, hproxy, congrArg Byedpi.Job.phase hjob, hphase⟩
      | returned failed => exact hphase.elim
      | posted failed => exact hphase.elim
      | done => exact hphase.elim

theorem listening_rehabilitator (hengaged : Engaged p .rehabilitator) (hquiescent : Quiescent p) :
    Listening p .rehabilitator := by
  obtain ⟨start, ⟨hstopped, _⟩ | ⟨_, _, _, hset | ⟨hlaunched | ⟨_, hbyedpiJob⟩, halive⟩⟩⟩ := hengaged
  · have hnone := hquiescent (.rehabilitator .setProxy) (fun party => by cases party <;> rfl)
    simp [step, RehabilitatorService.mainStopped, RehabilitatorService.step, hstopped] at hnone
  · have hnone := hquiescent (.rehabilitator .launchJob) (fun party => by cases party <;> rfl)
    simp [step, RehabilitatorService.mainStopped, RehabilitatorService.step, hset] at hnone
  · have hnone := hquiescent (.rehabilitator .setJob) (fun party => by cases party <;> rfl)
    simp [step, RehabilitatorService.mainStopped, RehabilitatorService.step, hlaunched] at hnone
  · obtain ⟨_, hphase⟩ := halive
    cases hjob : p.rehabilitator.jobs start with
    | mk owner phase =>
        rw [hjob] at hphase
        cases phase with
        | launched =>
            have hnone := hquiescent (.rehabilitator (.jobDispatched start)) (fun party => by cases party <;> rfl)
            simp [step, RehabilitatorService.mainStopped, RehabilitatorService.step, hjob] at hnone
        | begun =>
            have hnone := hquiescent (.rehabilitator (.jobReads start)) (fun party => by cases party <;> rfl)
            simp [step, RehabilitatorService.mainStopped, RehabilitatorService.step, hjob] at hnone
        | starting =>
            have hnone := hquiescent (.rehabilitator (.jobStarts start)) (fun party => by cases party <;> rfl)
            simp only [step, RehabilitatorService.mainStopped, RehabilitatorService.step, hjob, if_true] at hnone
            split at hnone <;> cases hnone
        | main main => exact ⟨start, main, hbyedpiJob, congrArg Job.phase hjob, hphase.1, hphase.2.1⟩
        | done => exact hphase.1.elim

-- Where only one service is in use at a time, none shuts down a socket of the other, and when
-- both have come to rest, one that has been started and not stopped since is listening.
theorem run_separate {events : List Event} (hseparate : Allowed step Separate initial events)
    (hrun : run step initial events = some q) :
    (∀ caller main, (caller, main) ∈ q.lib.shut → main.caller = caller) ∧
      ∀ party before start after, events = before ++ start :: after → start.isStartOf party = true →
        (∀ event ∈ after, event.isIntentOf party = false) → Quiescent q → Listening q party := by
  have hq : Isolated q :=
    run_induction_allowed Isolated Separate step_isolated initial_isolated hseparate hrun
  refine ⟨hq.shut, ?_⟩
  rintro party before start after rfl hstart hafter hquiescent
  obtain ⟨p, hp, hrest⟩ := run_append_eq_some.mp hrun
  obtain ⟨hbefore, hbehind⟩ := hseparate.append hp
  obtain ⟨u, hu, hlast⟩ := run_cons_eq_some.mp hrest
  have hisolated : Isolated p :=
    run_induction_allowed Isolated Separate step_isolated initial_isolated hbefore hp
  have hengaged : Isolated q ∧ Engaged q party := by
    refine run_induction_allowed (fun v => Isolated v ∧ Engaged v party)
      (fun v event => event.isIntentOf party = false ∧ Separate v event) (fun v event w hv hallowed hstep => ?_)
      ⟨step_isolated p start u hisolated hbehind.1 hu, start_engaged hisolated hstart hbehind.1 hu⟩
      ((hbehind.2 u hu).and_mem hafter) hlast
    exact ⟨step_isolated v event w hv.1 hallowed.2 hstep,
      step_engaged hv.1 hallowed.1 hallowed.2 hstep hv.2⟩
  cases party with
  | byedpi => exact listening_byedpi hq hengaged.2 hquiescent
  | rehabilitator => exact listening_rehabilitator hengaged.2 hquiescent

-- ByeDpiProxyService is started and stopped; then RehabilitatorService is started, and listens.
def handover : List Event :=
  [.byedpi (.onStart .native), .byedpi (.dispatch 0), .byedpi (.enter 0), .byedpi .onStop, .byedpi (.mainReturns 0),
    .byedpi (.post 0), .byedpi .joined]

def takeover : List Event :=
  [.rehabilitator (.stopDispatched 0), .rehabilitator (.stopReads 0), .rehabilitator (.stopReadsJob 0),
    .rehabilitator (.stopClears 0), .rehabilitator .setProxy, .rehabilitator .launchJob, .rehabilitator .setJob,
    .rehabilitator (.jobDispatched 0), .rehabilitator (.jobReads 0), .rehabilitator (.jobStarts 0)]

theorem run_listening_of_separate :
    ∃ q, run step initial (handover ++ .rehabilitator .onStart :: takeover) = some q ∧
      q.lib.shut = [(.byedpi, { caller := .byedpi, number := 0 })] ∧ Listening q .rehabilitator := by
  have hseparate : Allowed step Separate initial (handover ++ .rehabilitator .onStart :: takeover) := by
    refine .cons ⟨⟨rfl, rfl, rfl⟩, rfl, RehabilitatorService.Idle.initial_idle⟩ rfl ?_
    refine .cons trivial rfl (.cons trivial rfl (.cons trivial rfl (.cons trivial rfl ?_)))
    refine .cons trivial rfl (.cons trivial rfl (.cons ⟨trivial, fun _ => rfl⟩ rfl ?_))
    refine .cons ⟨trivial, nofun⟩ rfl (.cons ⟨trivial, nofun⟩ rfl ?_)
    refine .cons ⟨fun _ _ => ⟨nofun, nofun⟩, nofun⟩ rfl (.cons ⟨trivial, nofun⟩ rfl ?_)
    refine .cons ⟨fun stop _ => ?_, nofun⟩ rfl (.cons ⟨trivial, nofun⟩ rfl (.cons ⟨trivial, nofun⟩ rfl ?_))
    · cases stop <;> exact trivial
    · refine .cons ⟨trivial, nofun⟩ rfl (.cons ⟨trivial, nofun⟩ rfl ?_)
      refine .cons ⟨fun _ => ⟨rfl, fun stop => ?_⟩, nofun⟩ rfl trivial
      cases stop <;> exact id
  refine ⟨_, rfl, rfl, ?_⟩
  refine (run_separate hseparate rfl).2 .rehabilitator handover (.rehabilitator .onStart) takeover rfl rfl
    (by simp [takeover, Event.isIntentOf, RehabilitatorService.Event.isIntent]) fun event hintent => ?_
  cases event with
  | byedpi event =>
      have hparty := hintent .byedpi
      cases event with
      | onStart preferences => cases hparty
      | onStop => cases hparty
      | joined => rfl
      | resume => rfl
      | _ job => cases job <;> rfl
  | rehabilitator event =>
      have hparty := hintent .rehabilitator
      cases event with
      | onStart => cases hparty
      | onStop => cases hparty
      | onDestroy => cases hparty
      | setProxy => rfl
      | launchJob => rfl
      | setJob => rfl
      | cancelScope => rfl
      | _ number => cases number <;> rfl

-- A stop of RehabilitatorService, whose job the library has refused, shuts down the socket of
-- ByeDpiProxyService.
theorem run_shuts_other :
    ∃ q, run step initial
        [.byedpi (.onStart .native), .byedpi (.dispatch 0), .byedpi (.enter 0),
          .rehabilitator .onStart, .rehabilitator .setProxy, .rehabilitator .launchJob, .rehabilitator .setJob,
          .rehabilitator .onStop, .rehabilitator (.stopDispatched 1), .rehabilitator (.stopReads 1),
          .rehabilitator (.stopCalls 1)] = some q ∧
      (Party.rehabilitator, { caller := .byedpi, number := 0 }) ∈ q.lib.shut := by
  refine ⟨_, rfl, List.mem_cons_self⟩

end ToInet.Rehabilitator.MainProcess
