import ToInet.Byedpi.ByeDpiProxyService

namespace ToInet.Byedpi.ByeDpiProxyService

open ToInet.Lib

variable {κ : Type} [DecidableEq κ]

-- A job that nothing has asked to end.
def Alive (me : κ) (lib : NativeLib κ) (job : Job κ) : Prop :=
  job.cancelled = false ∧
    match job.phase with
    | .launched | .looping | .begun => True
    | .main main => main.caller = me ∧ lib.isShut main = false
    | _ => False

-- The service is connected as long as it has a job, which is alive unless a stop waits for it.
structure Kept (me : κ) (s : ByeDpiProxyService κ) (lib : NativeLib κ) : Prop where
  status : s.status = .connected ∧ s.proxyJob.isSome = true ∨ s.status = .disconnected ∧ s.proxyJob = none
  others : ∀ job, s.proxyJob ≠ some job → (s.jobs job).phase = .done
  alive : s.joining = none → ∀ job, s.proxyJob = some job → Alive me lib (s.jobs job)
  joins : ∀ job, s.joining = some job →
    s.proxyJob = some job ∧ (s.jobs job).cancelled = true ∧ s.granted = none
  granted : ∀ handler, s.granted = some handler → handler = .stop ∧ s.status = .disconnected
  waiting : ∀ handler ∈ s.waiting, handler = .stop
  held : s.waiting ≠ [] → s.locked = true

variable {me : κ} {s t : ByeDpiProxyService κ} {lib next : NativeLib κ}

theorem finished_iff (h : Kept me s lib) : Finished s ↔ s.locked = false := by
  unfold Finished locked
  constructor
  · rintro ⟨hjoining, hgranted, _⟩
    rw [hjoining, hgranted]
    rfl
  · intro hfree
    obtain ⟨hjoining, hgranted⟩ := Bool.or_eq_false_iff.mp hfree
    refine ⟨Option.isSome_eq_false_iff.mp hjoining |> Option.isNone_iff_eq_none.mp,
      Option.isSome_eq_false_iff.mp hgranted |> Option.isNone_iff_eq_none.mp, ?_⟩
    by_contra hwaiting
    have hheld := h.held hwaiting
    rw [locked, hjoining, hgranted] at hheld
    cases hheld

theorem initial_kept : Kept me (initial : ByeDpiProxyService κ) lib where
  status := .inr ⟨rfl, rfl⟩
  others := fun _ _ => rfl
  alive := fun _ => nofun
  joins := nofun
  granted := nofun
  waiting := nofun
  held := fun h => absurd rfl h

theorem Alive.phase_ne_done {job : Job κ} (h : Alive me lib job) : job.phase ≠ .done := by
  intro hdone
  have hphase := h.2
  rw [hdone] at hphase
  exact hphase

theorem Alive.mono {job : Job κ} (h : Alive me lib job)
    (hlib : ∀ main : Main κ, main.caller = me → next.isShut main = true → lib.isShut main = true) :
    Alive me next job := by
  refine ⟨h.1, ?_⟩
  have hphase := h.2
  revert hphase
  cases job.phase with
  | main main =>
      rintro ⟨hcaller, hshut⟩
      refine ⟨hcaller, ?_⟩
      rw [← Bool.not_eq_true] at hshut ⊢
      exact fun hnext => hshut (hlib main hcaller hnext)
  | _ => exact id

-- What the library does for others leaves the service alone.
theorem Kept.mono (h : Kept me s lib)
    (hlib : ∀ main : Main κ, main.caller = me → next.isShut main = true → lib.isShut main = true) :
    Kept me s next :=
  { h with alive := fun hjoining job hjob => (h.alive hjoining job hjob).mono hlib }

-- A stop cancels a job that has not completed and waits for it.
theorem stopLocked_eq {job : Nat} (hstatus : s.status ≠ .disconnected) (hproxy : s.proxyJob = some job)
    (hphase : (s.jobs job).phase ≠ .done) :
    s.stopLocked me lib =
      ({ s.setJob job { s.jobs job with cancelled := true } with joining := some job, granted := none },
        lib.jniStopProxy me) := by
  simp [stopLocked, hstatus, cancelJob, hproxy, hphase, Option.filter]

namespace Kept

-- The job under way is the one that proxyJob holds.
theorem proxyJob_of_ne_done (h : Kept me s lib) {job : Nat} (hjob : (s.jobs job).phase ≠ .done) :
    s.proxyJob = some job := by
  by_contra hne
  exact hjob (h.others job hne)

-- A job goes on to another place.
theorem setPhase (h : Kept me s lib) {job : Nat} {phase : Phase κ} (hjob : (s.jobs job).phase ≠ .done)
    (halive : s.joining = none → Alive me next { s.jobs job with phase }) :
    Kept me (s.setPhase job phase) next := by
  have hproxy := h.proxyJob_of_ne_done hjob
  refine
    { h with
      others := fun other hother => ?_
      alive := fun hjoining other hother => ?_
      joins := fun other hother => ?_ }
  · have hne : other ≠ job := by
      rintro rfl
      exact hother hproxy
    simp only [ByeDpiProxyService.setPhase, setJob, Function.update_of_ne hne]
    exact h.others other hother
  · obtain rfl := Option.some.inj (hproxy.symm.trans hother)
    simp only [ByeDpiProxyService.setPhase, setJob, Function.update_self]
    exact halive hjoining
  · obtain ⟨hsame, hcancelled, hgranted⟩ := h.joins other hother
    obtain rfl := Option.some.inj (hproxy.symm.trans hsame)
    refine ⟨hproxy, ?_, hgranted⟩
    simp only [ByeDpiProxyService.setPhase, setJob, Function.update_self]
    exact hcancelled

theorem done_of_disconnected (h : Kept me s lib) (hstatus : s.status = .disconnected) (job : Nat) :
    s.proxyJob = none ∧ (s.jobs job).phase = .done := by
  obtain ⟨hconnected, _⟩ | ⟨_, hnone⟩ := h.status
  · rw [hstatus] at hconnected
    cases hconnected
  · exact ⟨hnone, h.others job (by rw [hnone]; nofun)⟩

-- Behind the join the mutex goes to the next stop, if one waits.
theorem release (hdone : ∀ job, (s.jobs job).phase = .done)
    (hwaiting : ∀ handler ∈ s.waiting, handler = .stop) :
    Kept me (s.unlock.updateStatus .disconnected) next where
  status := .inr ⟨rfl, rfl⟩
  others := fun job _ => hdone job
  alive := fun _ => nofun
  joins := nofun
  granted := fun handler h => ⟨hwaiting handler (List.mem_of_mem_head? h), rfl⟩
  waiting := fun handler h => hwaiting handler (List.mem_of_mem_tail h)
  held := by
    intro hrest
    simp only [unlock, updateStatus] at hrest
    cases hqueue : s.waiting with
    | nil =>
        rw [hqueue] at hrest
        exact absurd rfl hrest
    | cons handler rest => simp [unlock, updateStatus, locked, hqueue]

theorem finishStop (h : Kept me s lib) {job : Nat} (hjoining : s.joining = some job)
    (hdone : (s.jobs job).phase = .done) : Kept me s.finishStop next := by
  obtain ⟨hproxy, _, _⟩ := h.joins job hjoining
  refine release (fun other => ?_) h.waiting
  by_cases hother : other = job
  · rw [hother]
    exact hdone
  · exact h.others other fun hsome => hother (Option.some.inj (hsome.symm.trans hproxy))

-- A stop cancels the job and waits for it.
theorem stopJoins (h : Kept me s lib) {job : Nat} (hproxy : s.proxyJob = some job) :
    Kept me { s.setJob job { s.jobs job with cancelled := true } with joining := some job, granted := none }
      next where
  status := h.status
  others := by
    intro other hother
    have hne : other ≠ job := by
      rintro rfl
      exact hother hproxy
    simp only [setJob, Function.update_of_ne hne]
    exact h.others other hother
  alive := nofun
  joins := by
    intro other hother
    obtain rfl := Option.some.inj hother
    refine ⟨hproxy, ?_, rfl⟩
    simp only [setJob, Function.update_self]
  granted := nofun
  waiting := h.waiting
  held := fun _ => rfl

-- What a stop does: it waits for the mutex, finds nothing to stop, or joins the job.
theorem stop_cases (h : Kept me s lib) :
    s.locked = true ∧ s.stop me lib = ({ s with waiting := s.waiting ++ [.stop] }, lib) ∨
      Finished s ∧
        (s.status = .disconnected ∧ s.stop me lib = (s.unlock.updateStatus .disconnected, lib) ∨
          s.status = .connected ∧ ∃ job, s.proxyJob = some job ∧
            s.stop me lib =
              ({ s.setJob job { s.jobs job with cancelled := true } with joining := some job, granted := none },
                lib.jniStopProxy me)) := by
  unfold ByeDpiProxyService.stop
  split
  · rename_i hlocked
    exact .inl ⟨hlocked, rfl⟩
  · rename_i hfree
    have hfinished : Finished s := (finished_iff h).mpr (Bool.not_eq_true _ ▸ hfree)
    refine .inr ⟨hfinished, ?_⟩
    obtain ⟨hstatus, hsome⟩ | ⟨hstatus, _⟩ := h.status
    · obtain ⟨job, hproxy⟩ := Option.isSome_iff_exists.mp hsome
      have hconnected : s.status ≠ .disconnected := by
        rw [hstatus]
        nofun
      exact .inr ⟨hstatus, job, hproxy,
        stopLocked_eq hconnected hproxy (h.alive hfinished.1 job hproxy).phase_ne_done⟩
    · exact .inl ⟨hstatus, if_pos hstatus⟩

-- A start that finds the service disconnected launches a job.
theorem launch (h : Kept me s lib) (hstatus : s.status = .disconnected) (hwaiting : s.waiting = [])
    (router : Bool) : Kept me ((s.launch router).unlock.updateStatus .connected) lib := by
  refine
    { status := .inl ⟨rfl, rfl⟩
      others := fun job hjob => ?_
      alive := fun _ job hjob => ?_
      joins := nofun
      granted := ?_
      waiting := ?_
      held := ?_ }
  · have hne : job ≠ s.launched := by
      rintro rfl
      exact hjob rfl
    simp only [unlock, updateStatus, ByeDpiProxyService.launch, setJob, Function.update_of_ne hne]
    exact (h.done_of_disconnected hstatus job).2
  · obtain rfl := Option.some.inj hjob
    simp only [unlock, updateStatus, ByeDpiProxyService.launch, setJob, Function.update_self]
    exact ⟨rfl, trivial⟩
  all_goals simp [unlock, updateStatus, ByeDpiProxyService.launch, setJob, locked, hwaiting]

-- What a start does: nothing where the service is connected, and else it launches a job or fails
-- and stops.
theorem start_cases (h : Kept me s lib) (hgranted : s.granted = none) (preferences : Launch) :
    s.status = .connected ∧ s.start me lib preferences = (s, lib) ∨
      s.status = .disconnected ∧ Finished s ∧
        (preferences ≠ .invalid ∧ s.start me lib preferences =
              ((s.launch (preferences = .router)).unlock.updateStatus .connected, lib) ∨
          preferences = .invalid ∧
            s.start me lib preferences =
              ((s.unlock.updateStatus .failed).unlock.updateStatus .disconnected, lib.jniStopProxy me)) := by
  obtain ⟨hstatus, _⟩ | ⟨hstatus, hproxy⟩ := h.status
  · exact .inl ⟨hstatus, if_pos hstatus⟩
  · have hjoining : s.joining = none := by
      rw [← Option.not_isSome_iff_eq_none]
      intro hsome
      obtain ⟨job, hjob⟩ := Option.isSome_iff_exists.mp hsome
      rw [(h.joins job hjob).1] at hproxy
      cases hproxy
    have hfree : s.locked = false := by
      rw [locked, hjoining, hgranted]
      rfl
    have hfinished := (finished_iff h).mpr hfree
    have hstart : s.start me lib preferences = s.startLocked me lib preferences := by
      have hconnected : s.status ≠ .connected := by
        rw [hstatus]
        nofun
      rw [ByeDpiProxyService.start, if_neg hconnected, hfree]
      rfl
    rw [hstart]
    refine .inr ⟨hstatus, hfinished, ?_⟩
    cases preferences with
    | invalid =>
        refine .inr ⟨rfl, ?_⟩
        simp [startLocked, startProxy, hproxy, ByeDpiProxyService.stop, stopLocked, unlock, updateStatus,
          hfinished.2.2, locked, cancelJob, ByeDpiProxyService.finishStop]
    | router =>
        refine .inl ⟨nofun, ?_⟩
        simp [startLocked, startProxy, hproxy, updateStatus, unlock]
    | native =>
        refine .inl ⟨nofun, ?_⟩
        simp [startLocked, startProxy, hproxy]

end Kept

-- A job that nothing joins is not behind main(), and its main() has not been shut down.
theorem Kept.not_ended (h : Kept me s lib) {job : Nat} (hjoining : s.joining = none)
    (hjob : (s.jobs job).phase ≠ .done) :
    (s.jobs job).cancelled = false ∧ (∀ failed, (s.jobs job).phase ≠ .returned failed) ∧
      (∀ failed, (s.jobs job).phase ≠ .posted failed) ∧
      ∀ main, (s.jobs job).phase = .main main → lib.isShut main = false := by
  obtain ⟨hcancelled, hphase⟩ := h.alive hjoining job (h.proxyJob_of_ne_done hjob)
  refine ⟨hcancelled, ?_⟩
  revert hphase
  cases (s.jobs job).phase with
  | main main => exact fun hmain => ⟨nofun, nofun, fun other hother => Phase.main.inj hother ▸ hmain.2⟩
  | launched => exact fun _ => ⟨nofun, nofun, nofun⟩
  | looping => exact fun _ => ⟨nofun, nofun, nofun⟩
  | begun => exact fun _ => ⟨nofun, nofun, nofun⟩
  | returned failed => exact False.elim
  | posted failed => exact False.elim
  | done => exact False.elim

-- A job gets behind its main() only where a stop waits for it, and then it is cancelled.
theorem Kept.joining_of_posted (h : Kept me s lib) {job : Nat} {failed : Bool}
    (hphase : (s.jobs job).phase = .posted failed) : s.joining ≠ none ∧ (s.jobs job).cancelled = true := by
  have hposted : (s.jobs job).phase ≠ .done := by
    rw [hphase]
    nofun
  cases hjoining : s.joining with
  | none => exact absurd hphase ((h.not_ended hjoining hposted).2.2.1 failed)
  | some other =>
      obtain ⟨hproxy, hcancelled, _⟩ := h.joins other hjoining
      obtain rfl := Option.some.inj ((h.proxyJob_of_ne_done hposted).symm.trans hproxy)
      exact ⟨nofun, hcancelled⟩

-- What a step does.
inductive Does (me : κ) (s : ByeDpiProxyService κ) (lib : NativeLib κ) :
    Event → ByeDpiProxyService κ → NativeLib κ → Prop where
  | startConnected (preferences : Launch) (hgranted : s.granted = none) (hstatus : s.status = .connected) :
      Does me s lib (.onStart preferences) s lib
  | startLaunches (preferences : Launch) (hstatus : s.status = .disconnected) (hfinished : Finished s)
      (hvalid : preferences ≠ .invalid) :
      Does me s lib (.onStart preferences) ((s.launch (preferences = .router)).unlock.updateStatus .connected) lib
  | startFails (hstatus : s.status = .disconnected) (hfinished : Finished s) :
      Does me s lib (.onStart .invalid) ((s.unlock.updateStatus .failed).unlock.updateStatus .disconnected)
        (lib.jniStopProxy me)
  | stopWaits (hgranted : s.granted = none) (hlocked : s.locked = true) :
      Does me s lib .onStop { s with waiting := s.waiting ++ [.stop] } lib
  | stopIdle (hstatus : s.status = .disconnected) (hfinished : Finished s) :
      Does me s lib .onStop (s.unlock.updateStatus .disconnected) lib
  | stopJoins (job : Nat) (hstatus : s.status = .connected) (hfinished : Finished s)
      (hproxy : s.proxyJob = some job) :
      Does me s lib .onStop
        { s.setJob job { s.jobs job with cancelled := true } with joining := some job, granted := none }
        (lib.jniStopProxy me)
  | dispatch (job : Nat) (hphase : (s.jobs job).phase = .launched) :
      Does me s lib (.dispatch job)
        (s.setPhase job
          (if (s.jobs job).cancelled then .done else if (s.jobs job).router then .looping else .begun)) lib
  | refused (job : Nat) (hphase : (s.jobs job).phase = .begun) (hstart : lib.jniStartProxy me = none) :
      Does me s lib (.enter job) (s.setPhase job (.returned true)) lib
  | entered (job : Nat) (main : Main κ) (next : NativeLib κ) (hphase : (s.jobs job).phase = .begun)
      (hstart : lib.jniStartProxy me = some (main, next)) :
      Does me s lib (.enter job) (s.setPhase job (.main main)) next
  | mainReturns (job : Nat) (main : Main κ) (hphase : (s.jobs job).phase = .main main)
      (hshut : lib.isShut main = true) :
      Does me s lib (.mainReturns job) (s.setPhase job (.returned false)) (lib.mainReturns main)
  | post (job : Nat) (failed : Bool) (hphase : (s.jobs job).phase = .returned failed) :
      Does me s lib (.post job) (s.setPhase job (if (s.jobs job).cancelled then .done else .posted failed)) lib
  | complete (job : Nat) (failed : Bool) (hphase : (s.jobs job).phase = .posted failed) :
      Does me s lib (.complete job)
        (if (s.jobs job).cancelled then s.setPhase job .done
        else (s.setPhase job .done).updateStatus (if failed then .failed else .disconnected)) lib
  | endLoop (job : Nat) (hphase : (s.jobs job).phase = .looping) (hcancelled : (s.jobs job).cancelled = true) :
      Does me s lib (.endLoop job) (s.setPhase job .done) lib
  | joined (job : Nat) (hjoining : s.joining = some job) (hdone : (s.jobs job).phase = .done) :
      Does me s lib .joined s.finishStop lib
  | resume (handler : Handler) (hgranted : s.granted = some handler) (hstatus : s.status = .disconnected) :
      Does me s lib .resume (s.unlock.updateStatus .disconnected) lib

theorem Kept.does_onStart (h : Kept me s lib) (hgranted : s.granted = none) (preferences : Launch) :
    Does me s lib (.onStart preferences) (s.start me lib preferences).1 (s.start me lib preferences).2 := by
  obtain ⟨hstatus, hstart⟩ | ⟨hstatus, hfinished, ⟨hvalid, hstart⟩ | ⟨rfl, hstart⟩⟩ :=
    h.start_cases hgranted preferences
  · rw [hstart]
    exact .startConnected preferences hgranted hstatus
  · rw [hstart]
    exact .startLaunches preferences hstatus hfinished hvalid
  · rw [hstart]
    exact .startFails hstatus hfinished

theorem Kept.does_onStop (h : Kept me s lib) (hgranted : s.granted = none) :
    Does me s lib .onStop (s.stop me lib).1 (s.stop me lib).2 := by
  obtain ⟨hlocked, hstop⟩ | ⟨hfinished, ⟨hstatus, hstop⟩ | ⟨hstatus, job, hproxy, hstop⟩⟩ := h.stop_cases
  · rw [hstop]
    exact .stopWaits hgranted hlocked
  · rw [hstop]
    exact .stopIdle hstatus hfinished
  · rw [hstop]
    exact .stopJoins job hstatus hfinished hproxy

theorem Kept.does (h : Kept me s lib) {event : Event} (hstep : s.step me lib event = some (t, next)) :
    Does me s lib event t next := by
  cases event with
  | onStart preferences =>
      obtain ⟨hgranted, hstart⟩ := Option.ite_none_left_eq_some.mp hstep
      have hdoes := h.does_onStart (Option.not_isSome_iff_eq_none.mp hgranted) preferences
      rw [Option.some.inj hstart] at hdoes
      exact hdoes
  | onStop =>
      obtain ⟨hgranted, hstop⟩ := Option.ite_none_left_eq_some.mp hstep
      have hdoes := h.does_onStop (Option.not_isSome_iff_eq_none.mp hgranted)
      rw [Option.some.inj hstop] at hdoes
      exact hdoes
  | dispatch job =>
      simp only [step] at hstep
      split at hstep
      · rename_i hjob
        have hdispatch : Does me s lib _ _ _ := .dispatch job (congrArg Job.phase hjob)
        rw [hjob] at hdispatch
        obtain ⟨rfl, rfl⟩ := Prod.mk.inj (Option.some.inj hstep)
        exact hdispatch
      · cases hstep
  | enter job =>
      simp only [step] at hstep
      split at hstep
      · rename_i hphase
        split at hstep
        · rename_i hstart
          obtain ⟨rfl, rfl⟩ := Prod.mk.inj (Option.some.inj hstep)
          exact .refused job hphase hstart
        · rename_i main entered hstart
          obtain ⟨rfl, rfl⟩ := Prod.mk.inj (Option.some.inj hstep)
          exact .entered job main entered hphase hstart
      · cases hstep
  | mainReturns job =>
      simp only [step] at hstep
      split at hstep
      · rename_i main hphase
        obtain ⟨hshut, hreturns⟩ := Option.ite_none_right_eq_some.mp hstep
        obtain ⟨rfl, rfl⟩ := Prod.mk.inj (Option.some.inj hreturns)
        exact .mainReturns job main hphase hshut
      · cases hstep
  | post job =>
      simp only [step] at hstep
      split at hstep
      · rename_i failed cancelled hjob
        have hpost : Does me s lib _ _ _ := .post job failed (congrArg Job.phase hjob)
        rw [hjob] at hpost
        obtain ⟨rfl, rfl⟩ := Prod.mk.inj (Option.some.inj hstep)
        exact hpost
      · cases hstep
  | complete job =>
      simp only [step] at hstep
      split at hstep
      · rename_i failed cancelled hjob
        have hcomplete : Does me s lib _ _ _ := .complete job failed (congrArg Job.phase hjob)
        rw [hjob] at hcomplete
        obtain ⟨rfl, rfl⟩ := Prod.mk.inj (Option.some.inj hstep)
        exact hcomplete
      · cases hstep
  | endLoop job =>
      simp only [step] at hstep
      split at hstep
      · rename_i hjob
        obtain ⟨rfl, rfl⟩ := Prod.mk.inj (Option.some.inj hstep)
        exact .endLoop job (congrArg Job.phase hjob) (congrArg Job.cancelled hjob)
      · cases hstep
  | joined =>
      simp only [step] at hstep
      split at hstep
      · rename_i job hjoining
        obtain ⟨hdone, hjoined⟩ := Option.ite_none_right_eq_some.mp hstep
        obtain ⟨rfl, rfl⟩ := Prod.mk.inj (Option.some.inj hjoined)
        exact .joined job hjoining hdone
      · cases hstep
  | resume =>
      simp only [step] at hstep
      split at hstep
      · rename_i hgranted
        obtain ⟨_, hstatus⟩ := h.granted _ hgranted
        rw [stopLocked, if_pos hstatus] at hstep
        obtain ⟨rfl, rfl⟩ := Prod.mk.inj (Option.some.inj hstep)
        exact .resume .stop hgranted hstatus
      · rename_i hgranted
        cases (h.granted _ hgranted).1
      · cases hstep

end ToInet.Byedpi.ByeDpiProxyService
