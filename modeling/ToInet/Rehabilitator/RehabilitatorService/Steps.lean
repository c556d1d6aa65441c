import ToInet.Rehabilitator.RehabilitatorService

namespace ToInet.Rehabilitator.RehabilitatorService

open ToInet.Byedpi

variable {κ : Type}

section

variable {s : RehabilitatorService κ}

@[simp] theorem setStop_self (stop : Nat) (phase : StopPhase) :
    (s.setStop stop phase).stops stop = { s.stops stop with phase } := by
  simp only [setStop, Function.update_self]

theorem setStop_of_ne {stop other : Nat} (phase : StopPhase) (h : other ≠ stop) :
    (s.setStop stop phase).stops other = s.stops other := by
  simp only [setStop, Function.update_of_ne h]

@[simp] theorem setJob_self (job : Nat) (phase : JobPhase κ) :
    (s.setJob job phase).jobs job = { s.jobs job with phase } := by
  simp only [setJob, Function.update_self]

theorem setJob_of_ne {job other : Nat} (phase : JobPhase κ) (h : other ≠ job) :
    (s.setJob job phase).jobs other = s.jobs other := by
  simp only [setJob, Function.update_of_ne h]

theorem setFields_self (s : RehabilitatorService κ) (owner : Nat) (fields : Fields) :
    (s.setFields owner fields).fields owner = fields := by
  simp only [setFields, Function.update_self]

theorem setFields_of_ne (s : RehabilitatorService κ) {owner other : Nat} (fields : Fields) (h : other ≠ owner) :
    (s.setFields owner fields).fields other = s.fields other := by
  simp only [setFields, Function.update_of_ne h]

end

variable [DecidableEq κ]

-- What a step does.
inductive Does (me : κ) (s : RehabilitatorService κ) (lib : NativeLib κ) :
    Event → RehabilitatorService κ → NativeLib κ → Prop where
  | onStart (hidle : s.handling = .idle) : Does me s lib .onStart { s.stopInternal with handling := .stopped } lib
  | onStop (hidle : s.handling = .idle) : Does me s lib .onStop s.stopInternal lib
  | onDestroy (hidle : s.handling = .idle) :
      Does me s lib .onDestroy { s.stopInternal with handling := .destroying } lib
  | setProxy (hstopped : s.handling = .stopped) :
      Does me s lib .setProxy
        { s.setFields s.current { s.fields s.current with proxy := some s.started } with
          handling := .proxySet s.started, started := s.started + 1 } lib
  | launchJob (start : Nat) (hset : s.handling = .proxySet start) :
      Does me s lib .launchJob
        { s with
          handling := .jobLaunched start
          jobs := Function.update s.jobs start { owner := s.current, phase := .launched } } lib
  | setJob (start : Nat) (hlaunched : s.handling = .jobLaunched start) :
      Does me s lib .setJob
        { s.setFields s.current { s.fields s.current with byedpiJob := some start } with handling := .idle } lib
  | cancelScope (hdestroying : s.handling = .destroying) :
      Does me s lib .cancelScope { s with handling := .idle, current := s.current + 1 } lib
  | jobDispatched (job owner : Nat) (hjob : s.jobs job = { owner, phase := .launched }) :
      Does me s lib (.jobDispatched job) (s.setJob job (if s.cancelled owner then .done else .begun)) lib
  | jobReads (job owner : Nat) (hjob : s.jobs job = { owner, phase := .begun }) :
      Does me s lib (.jobReads job)
        (s.setJob job (if (s.fields owner).proxy.isSome then .starting else .done)) lib
  | refused (job : Nat) (hphase : (s.jobs job).phase = .starting) (hstart : lib.jniStartProxy me = none) :
      Does me s lib (.jobStarts job) (s.setJob job .done) lib
  | entered (job : Nat) (main : Main κ) (next : NativeLib κ) (hphase : (s.jobs job).phase = .starting)
      (hstart : lib.jniStartProxy me = some (main, next)) :
      Does me s lib (.jobStarts job) (s.setJob job (.main main)) next
  | mainReturns (job : Nat) (main : Main κ) (hphase : (s.jobs job).phase = .main main) :
      Does me s lib (.mainReturns job) (s.setJob job .done) (lib.mainReturns main)
  | stopDispatched (stop owner : Nat) (hstop : s.stops stop = { owner, phase := .launched }) :
      Does me s lib (.stopDispatched stop) (s.setStop stop (if s.cancelled owner then .done else .begun)) lib
  | stopReads (stop owner : Nat) (hstop : s.stops stop = { owner, phase := .begun }) :
      Does me s lib (.stopReads stop)
        (s.setStop stop (((s.fields owner).proxy.map StopPhase.stopping).getD .stopped)) lib
  | stopCalls (stop start : Nat) (hstopping : (s.stops stop).phase = .stopping start) :
      Does me s lib (.stopCalls stop) (s.setStop stop .stopped) (lib.jniStopProxy me)
  | stopReadsJob (stop owner : Nat) (hstop : s.stops stop = { owner, phase := .stopped }) :
      Does me s lib (.stopReadsJob stop)
        (s.setStop stop (((s.fields owner).byedpiJob.map StopPhase.joining).getD .joined)) lib
  | stopCancelled (stop owner job : Nat) (hstop : s.stops stop = { owner, phase := .joining job })
      (hcancelled : s.cancelled owner = true) :
      Does me s lib (.stopJoins stop) (s.setStop stop .done) lib
  | stopJoins (stop owner job : Nat) (hstop : s.stops stop = { owner, phase := .joining job })
      (hcancelled : s.cancelled owner = false) (hdone : (s.jobs job).phase = .done) :
      Does me s lib (.stopJoins stop) (s.setStop stop .joined) lib
  | stopClears (stop owner : Nat) (hstop : s.stops stop = { owner, phase := .joined }) :
      Does me s lib (.stopClears stop)
        ((s.setStop stop .done).setFields owner { s.fields owner with proxy := none }) lib

variable {me : κ} {s t : RehabilitatorService κ} {lib next : NativeLib κ}

theorem step_does {event : Event} (hstep : s.step me lib event = some (t, next)) : Does me s lib event t next := by
  cases event with
  | onStart =>
      obtain ⟨hidle, hmoves⟩ := Option.ite_none_right_eq_some.mp hstep
      obtain ⟨rfl, rfl⟩ := Prod.mk.inj (Option.some.inj hmoves)
      exact .onStart hidle
  | onStop =>
      obtain ⟨hidle, hmoves⟩ := Option.ite_none_right_eq_some.mp hstep
      obtain ⟨rfl, rfl⟩ := Prod.mk.inj (Option.some.inj hmoves)
      exact .onStop hidle
  | onDestroy =>
      obtain ⟨hidle, hmoves⟩ := Option.ite_none_right_eq_some.mp hstep
      obtain ⟨rfl, rfl⟩ := Prod.mk.inj (Option.some.inj hmoves)
      exact .onDestroy hidle
  | setProxy =>
      obtain ⟨hstopped, hmoves⟩ := Option.ite_none_right_eq_some.mp hstep
      obtain ⟨rfl, rfl⟩ := Prod.mk.inj (Option.some.inj hmoves)
      exact .setProxy hstopped
  | launchJob =>
      simp only [step] at hstep
      split at hstep
      · rename_i start hset
        obtain ⟨rfl, rfl⟩ := Prod.mk.inj (Option.some.inj hstep)
        exact .launchJob start hset
      · cases hstep
  | setJob =>
      simp only [step] at hstep
      split at hstep
      · rename_i start hlaunched
        obtain ⟨rfl, rfl⟩ := Prod.mk.inj (Option.some.inj hstep)
        exact .setJob start hlaunched
      · cases hstep
  | cancelScope =>
      obtain ⟨hdestroying, hmoves⟩ := Option.ite_none_right_eq_some.mp hstep
      obtain ⟨rfl, rfl⟩ := Prod.mk.inj (Option.some.inj hmoves)
      exact .cancelScope hdestroying
  | jobDispatched job =>
      simp only [step] at hstep
      split at hstep
      · rename_i owner hjob
        obtain ⟨rfl, rfl⟩ := Prod.mk.inj (Option.some.inj hstep)
        exact .jobDispatched job owner hjob
      · cases hstep
  | jobReads job =>
      simp only [step] at hstep
      split at hstep
      · rename_i owner hjob
        obtain ⟨rfl, rfl⟩ := Prod.mk.inj (Option.some.inj hstep)
        exact .jobReads job owner hjob
      · cases hstep
  | jobStarts job =>
      simp only [step] at hstep
      split at hstep
      · rename_i hphase
        split at hstep
        · rename_i hstart
          obtain ⟨rfl, rfl⟩ := Prod.mk.inj (Option.some.inj hstep)
          exact .refused job hphase hstart
        · rename_i main entered hstart
          obtain ⟨rfl, rfl⟩ := Prod.mk.inj (Option.some.inj hstep)
          exact .entered job main entered hphase hstart
      · cases hstep
  | mainReturns job =>
      simp only [step] at hstep
      split at hstep
      · rename_i main hphase
        obtain ⟨rfl, rfl⟩ := Prod.mk.inj (Option.some.inj hstep)
        exact .mainReturns job main hphase
      · cases hstep
  | stopDispatched stop =>
      simp only [step] at hstep
      split at hstep
      · rename_i owner hstop
        obtain ⟨rfl, rfl⟩ := Prod.mk.inj (Option.some.inj hstep)
        exact .stopDispatched stop owner hstop
      · cases hstep
  | stopReads stop =>
      simp only [step] at hstep
      split at hstep
      · rename_i owner hstop
        obtain ⟨rfl, rfl⟩ := Prod.mk.inj (Option.some.inj hstep)
        exact .stopReads stop owner hstop
      · cases hstep
  | stopCalls stop =>
      simp only [step] at hstep
      split at hstep
      · rename_i start hstopping
        obtain ⟨rfl, rfl⟩ := Prod.mk.inj (Option.some.inj hstep)
        exact .stopCalls stop start hstopping
      · cases hstep
  | stopReadsJob stop =>
      simp only [step] at hstep
      split at hstep
      · rename_i owner hstop
        obtain ⟨rfl, rfl⟩ := Prod.mk.inj (Option.some.inj hstep)
        exact .stopReadsJob stop owner hstop
      · cases hstep
  | stopJoins stop =>
      simp only [step] at hstep
      split at hstep
      · rename_i owner job hstop
        split at hstep
        · rename_i hcancelled
          obtain ⟨rfl, rfl⟩ := Prod.mk.inj (Option.some.inj hstep)
          exact .stopCancelled stop owner job hstop hcancelled
        · rename_i hcancelled
          obtain ⟨hdone, hjoins⟩ := Option.ite_none_right_eq_some.mp hstep
          obtain ⟨rfl, rfl⟩ := Prod.mk.inj (Option.some.inj hjoins)
          exact .stopJoins stop owner job hstop (Bool.not_eq_true _ ▸ hcancelled) hdone
      · cases hstep
  | stopClears stop =>
      simp only [step] at hstep
      split at hstep
      · rename_i owner hstop
        obtain ⟨rfl, rfl⟩ := Prod.mk.inj (Option.some.inj hstep)
        exact .stopClears stop owner hstop
      · cases hstep

end ToInet.Rehabilitator.RehabilitatorService
