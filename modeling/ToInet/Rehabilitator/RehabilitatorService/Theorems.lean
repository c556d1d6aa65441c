import ToInet.Rehabilitator.RehabilitatorService.Standing

namespace ToInet.Rehabilitator.RehabilitatorService

open ToInet.Byedpi ToInet.Lib

variable {κ : Type} [DecidableEq κ] {me : κ} {ends : Prop} {s t : RehabilitatorService κ} {lib next : NativeLib κ}
  {start : Nat}

omit [DecidableEq κ] in
theorem initial_numbered : (initial : RehabilitatorService κ).Numbered :=
  ⟨nofun, nofun, fun _ h => absurd rfl h, nofun⟩

namespace Numbered

omit [DecidableEq κ]

theorem setStop (h : s.Numbered) {stop : Nat} {phase : StopPhase}
    (hphase : ∀ start, phase = .stopping start → start < s.started) : (s.setStop stop phase).Numbered := by
  refine ⟨h.proxy, fun other start hstopping => ?_, h.jobs, h.handling⟩
  by_cases hother : other = stop
  · rw [hother, setStop_self] at hstopping
    exact hphase start hstopping
  · rw [setStop_of_ne phase hother] at hstopping
    exact h.stopping other start hstopping

theorem setFields (h : s.Numbered) {owner : Nat} {fields : Fields}
    (hproxy : ∀ start, fields.proxy = some start → start < s.started) : (s.setFields owner fields).Numbered := by
  refine ⟨fun other start hsome => ?_, h.stopping, h.jobs, h.handling⟩
  by_cases hother : other = owner
  · rw [hother, setFields_self] at hsome
    exact hproxy start hsome
  · rw [setFields_of_ne s fields hother] at hsome
    exact h.proxy other start hsome

theorem setJob (h : s.Numbered) {job : Nat} {phase : JobPhase κ} (hjob : (s.jobs job).phase ≠ .done) :
    (s.setJob job phase).Numbered := by
  refine ⟨h.proxy, h.stopping, fun other hother => ?_, h.handling⟩
  by_cases hsame : other = job
  · rw [hsame]
    exact h.jobs job hjob
  · rw [setJob_of_ne phase hsame] at hother
    exact h.jobs other hother

theorem setHandling (h : s.Numbered) {handling : Handling} (hhandling : ∀ start, handling ≠ .proxySet start) :
    ({ s with handling } : RehabilitatorService κ).Numbered :=
  ⟨h.proxy, h.stopping, fun job hjob => ⟨(h.jobs job hjob).1, hhandling job⟩,
    fun start hset => absurd hset (hhandling start)⟩

theorem stopInternal (h : s.Numbered) : s.stopInternal.Numbered := by
  refine ⟨h.proxy, fun other start hstopping => ?_, h.jobs, h.handling⟩
  simp only [RehabilitatorService.stopInternal] at hstopping
  by_cases hother : other = s.stopped
  · rw [hother, Function.update_self] at hstopping
    cases hstopping
  · rw [Function.update_of_ne hother] at hstopping
    exact h.stopping other start hstopping

-- The assignment to proxy takes the next number.
theorem setProxy (h : s.Numbered) :
    ({ s.setFields s.current { s.fields s.current with proxy := some s.started } with
      handling := .proxySet s.started, started := s.started + 1 } : RehabilitatorService κ).Numbered := by
  refine ⟨fun owner start hsome => ?_,
    fun stop start hstopping => Nat.lt_succ_of_lt (h.stopping stop start hstopping),
    fun job hjob => ⟨Nat.lt_succ_of_lt (h.jobs job hjob).1, fun hset => ?_⟩, fun start hset => ?_⟩
  · by_cases howner : owner = s.current
    · have hsame := congrArg Fields.proxy
        (setFields_self s owner { s.fields s.current with proxy := some s.started })
      rw [howner] at hsame hsome
      obtain rfl := Option.some.inj (hsame.symm.trans hsome)
      exact Nat.lt_succ_self _
    · have hsame := setFields_of_ne s { s.fields s.current with proxy := some s.started } howner
      exact Nat.lt_succ_of_lt (h.proxy owner start ((congrArg Fields.proxy hsame).symm.trans hsome))
  · have hlt := (h.jobs job hjob).1
    rw [Handling.proxySet.inj hset] at hlt
    exact Nat.lt_irrefl _ hlt
  · rw [← Handling.proxySet.inj hset]
    exact Nat.lt_succ_self _

theorem launchJob (h : s.Numbered) {start : Nat} (hset : s.handling = .proxySet start) :
    ({ s with
      handling := .jobLaunched start
      jobs := Function.update s.jobs start { owner := s.current, phase := .launched } } :
        RehabilitatorService κ).Numbered := by
  refine ⟨h.proxy, h.stopping, fun job hjob => ⟨?_, nofun⟩, nofun⟩
  by_cases hsame : job = start
  · rw [hsame]
    exact h.handling start hset
  · simp only [Function.update_of_ne hsame] at hjob
    exact (h.jobs job hjob).1

end Numbered

theorem step_numbered (h : s.Numbered) {event : Event} (hstep : s.step me lib event = some (t, next)) :
    t.Numbered := by
  cases step_does hstep with
  | onStart | onDestroy => exact h.stopInternal.setHandling nofun
  | onStop => exact h.stopInternal
  | setProxy => exact h.setProxy
  | launchJob start hset => exact h.launchJob hset
  | setJob start =>
      have hfields : (s.setFields s.current { s.fields s.current with byedpiJob := some start }).Numbered :=
        h.setFields (h.proxy s.current)
      exact hfields.setHandling nofun
  | cancelScope =>
      have hidle : ({ s with handling := .idle } : RehabilitatorService κ).Numbered := h.setHandling nofun
      exact ⟨h.proxy, h.stopping, hidle.jobs, hidle.handling⟩
  | jobDispatched job owner hjob | jobReads job owner hjob => exact h.setJob (by rw [hjob]; nofun)
  | refused job hphase | entered job _ _ hphase | mainReturns job _ hphase =>
      exact h.setJob (by rw [hphase]; nofun)
  | stopDispatched =>
      refine h.setStop fun start hphase => ?_
      split at hphase <;> cases hphase
  | stopReads stop owner =>
      refine h.setStop fun start hphase => ?_
      cases hproxy : (s.fields owner).proxy with
      | none =>
          rw [hproxy] at hphase
          cases hphase
      | some other =>
          rw [hproxy] at hphase
          rw [← StopPhase.stopping.inj hphase]
          exact h.proxy owner other hproxy
  | stopReadsJob stop owner =>
      refine h.setStop fun start hphase => ?_
      cases hjob : (s.fields owner).byedpiJob <;>
        · rw [hjob] at hphase
          cases hphase
  | stopCalls | stopCancelled | stopJoins => exact h.setStop nofun
  | stopClears stop =>
      have hset : (s.setStop stop .done).Numbered := h.setStop nofun
      refine hset.setFields fun start hnone => ?_
      cases hnone

def KeepsMains (s t : RehabilitatorService κ) : Prop :=
  ∀ job main, (s.jobs job).phase = .main main → (t.jobs job).phase = .main main

omit [DecidableEq κ] in
theorem keepsMains_setJob {job : Nat} {phase : JobPhase κ} (h : ∀ main, (s.jobs job).phase ≠ .main main) :
    KeepsMains s (s.setJob job phase) := by
  intro other main hmain
  have hne : other ≠ job := by
    rintro rfl
    exact h main hmain
  rw [setJob_of_ne phase hne]
  exact hmain

-- What a step does to the library: nothing, a stop by a block that has read a proxy, the entry
-- into main(), or its return.
theorem step_lib (h : s.Numbered) {event : Event} (hstep : s.step me lib event = some (t, next)) :
    KeepsMains s t ∧ (next = lib ∨
        next = lib.jniStopProxy me ∧ ∃ stop start, (s.stops stop).phase = .stopping start) ∨
      (∃ job main, lib.jniStartProxy me = some (main, next) ∧ (t.jobs job).phase = .main main) ∨
      ∃ job main, (s.jobs job).phase = .main main ∧ next = lib.mainReturns main := by
  cases step_does hstep with
  | launchJob start hset =>
      refine .inl ⟨fun job main hmain => ?_, .inl rfl⟩
      have hne : job ≠ start := by
        rintro rfl
        exact (h.jobs job (by rw [hmain]; nofun)).2 hset
      simp only [Function.update_of_ne hne]
      exact hmain
  | jobDispatched job owner hjob | jobReads job owner hjob =>
      exact .inl ⟨keepsMains_setJob (by rw [hjob]; nofun), .inl rfl⟩
  | refused job hphase => exact .inl ⟨keepsMains_setJob (by rw [hphase]; nofun), .inl rfl⟩
  | entered job main _ _ hstart => exact .inr (.inl ⟨job, main, hstart, by rw [setJob_self]⟩)
  | mainReturns job main hmain => exact .inr (.inr ⟨job, main, hmain, rfl⟩)
  | stopCalls stop start hstopping => exact .inl ⟨fun _ _ => id, .inr ⟨rfl, stop, start, hstopping⟩⟩
  | _ => exact .inl ⟨fun _ _ => id, .inl rfl⟩

theorem step_lib_numbered (h : s.Numbered) (hlib : lib.Numbered) {event : Event}
    (hstep : s.step me lib event = some (t, next)) : next.Numbered := by
  obtain ⟨_, hsame | ⟨hstop, _⟩⟩ | ⟨_, main, hstart, _⟩ | ⟨_, main, _, hreturns⟩ := step_lib h hstep
  · rw [hsame]
    exact hlib
  · rw [hstop]
    exact hlib.jniStopProxy me
  · exact (hlib.jniStartProxy hstart).1
  · rw [hreturns]
    exact hlib.mainReturns main

namespace Idle

omit [DecidableEq κ]

theorem initial_idle : (initial : RehabilitatorService κ).Idle :=
  ⟨.inl rfl, fun _ _ => rfl, fun _ => rfl, fun _ => trivial⟩

theorem setStop (h : s.Idle) {stop : Nat} {phase : StopPhase}
    (hphase : match phase with
      | .launched | .begun => (s.fields (s.stops stop).owner).proxy = none
      | .stopping _ => False
      | _ => True) : (s.setStop stop phase).Idle := by
  refine ⟨h.handling, h.proxy, h.jobs, fun other => ?_⟩
  by_cases hother : other = stop
  · rw [hother, setStop_self]
    exact hphase
  · rw [setStop_of_ne phase hother]
    exact h.stops other

theorem clear (h : s.Idle) (owner : Nat) : (s.setFields owner { s.fields owner with proxy := none }).Idle := by
  have hproxy (other : Nat) (hnone : (s.fields other).proxy = none) :
      ((s.setFields owner { s.fields owner with proxy := none }).fields other).proxy = none := by
    by_cases hother : other = owner
    · rw [hother, setFields_self]
    · rw [setFields_of_ne s _ hother]
      exact hnone
  refine ⟨h.handling, fun other hother => hproxy other (h.proxy other hother), h.jobs, fun stop => ?_⟩
  have hstop := h.stops stop
  simp only [setFields] at hproxy ⊢
  revert hstop
  cases (s.stops stop).phase with
  | launched => exact hproxy _
  | begun => exact hproxy _
  | _ => exact id

theorem stopInternal (h : s.Idle) : s.stopInternal.Idle := by
  refine ⟨h.handling, h.proxy, h.jobs, fun other => ?_⟩
  by_cases hother : other = s.stopped
  · simp only [RehabilitatorService.stopInternal, hother, Function.update_self]
    exact h.proxy s.current (Nat.le_refl _)
  · simp only [RehabilitatorService.stopInternal, Function.update_of_ne hother]
    exact h.stops other

end Idle

-- Without a start, a service at rest has nothing to do.
theorem step_idle (h : s.Idle) {event : Event} (hstart : event ≠ .onStart)
    (hstep : s.step me lib event = some (t, next)) : t.Idle := by
  have hhandling : s.handling ≠ .stopped ∧
      ∀ start, s.handling ≠ .proxySet start ∧ s.handling ≠ .jobLaunched start := by
    obtain hidle | hdestroying := h.handling
    · rw [hidle]
      exact ⟨nofun, fun _ => ⟨nofun, nofun⟩⟩
    · rw [hdestroying]
      exact ⟨nofun, fun _ => ⟨nofun, nofun⟩⟩
  cases step_does hstep with
  | onStart => exact absurd rfl hstart
  | onStop => exact h.stopInternal
  | onDestroy => exact { h.stopInternal with handling := .inr rfl }
  | setProxy hstopped => exact absurd hstopped hhandling.1
  | launchJob start hset => exact absurd hset (hhandling.2 start).1
  | setJob start hlaunched => exact absurd hlaunched (hhandling.2 start).2
  | cancelScope =>
      exact ⟨.inl rfl, fun owner howner => h.proxy owner (Nat.le_of_succ_le howner), h.jobs, h.stops⟩
  | jobDispatched job owner hjob | jobReads job owner hjob =>
      have hdone := h.jobs job
      rw [hjob] at hdone
      cases hdone
  | refused job hphase | entered job _ _ hphase | mainReturns job _ hphase =>
      rw [h.jobs job] at hphase
      cases hphase
  | stopDispatched stop owner hstop =>
      have hproxy := h.stops stop
      rw [hstop] at hproxy
      cases s.cancelled owner with
      | true =>
          have hset : (s.setStop stop .done).Idle := h.setStop trivial
          exact hset
      | false =>
          have hset : (s.setStop stop .begun).Idle := h.setStop (by rw [hstop]; exact hproxy)
          exact hset
  | stopReads stop owner hstop =>
      have hproxy := h.stops stop
      rw [hstop] at hproxy
      have hset : (s.setStop stop .stopped).Idle := h.setStop trivial
      rw [show (s.fields owner).proxy = none from hproxy]
      exact hset
  | stopCalls stop start hstopping =>
      have hfalse := h.stops stop
      rw [hstopping] at hfalse
      exact hfalse.elim
  | stopReadsJob stop owner =>
      cases (s.fields owner).byedpiJob with
      | none =>
          have hset : (s.setStop stop .joined).Idle := h.setStop trivial
          exact hset
      | some job =>
          have hset : (s.setStop stop (.joining job)).Idle := h.setStop trivial
          exact hset
  | stopCancelled | stopJoins => exact h.setStop trivial
  | stopClears stop owner =>
      have hset : (s.setStop stop .done).Idle := h.setStop trivial
      exact hset.clear owner

-- A start that the main thread is at work on, or that stands.
def Underway (me : κ) (ends : Prop) (start : Nat) (s : RehabilitatorService κ) (lib : NativeLib κ) : Prop :=
  s.handling = .stopped ∧ s.started = start ∨ Standing me ends start s lib

-- In front of the assignment to proxy, only that assignment moves the main thread.
theorem step_stopped (hstopped : s.handling = .stopped) {event : Event} (hproxy : event ≠ .setProxy)
    (hstep : s.step me lib event = some (t, next)) : t.handling = .stopped ∧ t.started = s.started := by
  have hne {handling : Handling} (hhandling : s.handling = handling) (hother : handling ≠ .stopped) : False :=
    hother (hhandling.symm.trans hstopped)
  cases step_does hstep with
  | onStart hidle | onStop hidle | onDestroy hidle => exact (hne hidle nofun).elim
  | setProxy => exact absurd rfl hproxy
  | launchJob start hset => exact (hne hset nofun).elim
  | setJob start hlaunched => exact (hne hlaunched nofun).elim
  | cancelScope hdestroying => exact (hne hdestroying nofun).elim
  | _ => exact ⟨hstopped, rfl⟩

theorem step_underway (h : Underway me ends start s lib) (hnumbered : s.Numbered) (hlib : lib.Numbered)
    {event : Event} (hintent : event.isIntent = false) (horder : InOrder (s, lib) event)
    (hends : s.mainStopped lib event = false → ends) (hstep : s.step me lib event = some (t, next)) :
    Underway me ends start t next := by
  obtain ⟨hstopped, rfl⟩ | hstanding := h
  · by_cases hproxy : event = .setProxy
    · rw [hproxy] at hstep horder
      rw [step, if_pos hstopped] at hstep
      obtain ⟨rfl, rfl⟩ := Prod.mk.inj (Option.some.inj hstep)
      exact .inr (Standing.setProxy hnumbered horder)
    · exact .inl (step_stopped hstopped hproxy hstep)
  · exact .inr (step_standing hstanding hlib hintent horder hends hstep)

-- What others do to the library leaves a start alone, as long as they do not shut down its caller.
theorem Underway.mono (h : Underway me ends start s lib)
    (hlib : ∀ main : Main κ, main.caller = me → next.isShut main = true → lib.isShut main = true) :
    Underway me ends start s next := by
  refine h.imp_right fun hstanding => { hstanding with handling := hstanding.handling.imp_right ?_ }
  exact fun ⟨hhandling, halive⟩ => ⟨hhandling,
    halive.mono rfl (fun stop hstop => ⟨stop, hstop⟩) (fun main hcaller hmain => .inl (hlib main hcaller hmain)) id⟩

theorem Underway.denoted (h : Underway me ends start s lib) (hidle : s.handling = .idle) : Denoted start s lib := by
  obtain ⟨hstopped, _⟩ | ⟨hproxy, _, hstops, hset | ⟨hlaunched | ⟨_, hjob⟩, halive⟩⟩ := h
  · rw [hidle] at hstopped
    cases hstopped
  · rw [hidle] at hset
    cases hset
  · rw [hidle] at hlaunched
    cases hlaunched
  · refine ⟨hproxy, hjob, fun stop => (hstops stop).1, fun main hmain => ?_⟩
    have hphase := halive.2
    rw [hmain] at hphase
    exact hphase.2.1

theorem step_onStart (hstep : s.step me lib .onStart = some (t, next)) :
    t.handling = .stopped ∧ t.started = s.started := by
  cases step_does hstep
  exact ⟨rfl, rfl⟩

theorem stepWith_numbered (p : RehabilitatorService κ × NativeLib κ) (event : Event)
    (q : RehabilitatorService κ × NativeLib κ) (hp : p.1.Numbered ∧ p.2.Numbered)
    (hstep : stepWith me p event = some q) : q.1.Numbered ∧ q.2.Numbered :=
  ⟨step_numbered hp.1 hstep, step_lib_numbered hp.1 hp.2 hstep⟩

-- Where no block of stopInternal is overtaken, a start that has been handled stays denoted up to
-- the next intent.
theorem run_denoted {before after : List Event} {p q : RehabilitatorService κ × NativeLib κ}
    (hbefore : run (stepWith me) (initial, NativeLib.initial) before = some p)
    (hafter : ∀ event ∈ after, event.isIntent = false)
    (horder : Allowed (stepWith me) InOrder p (.onStart :: after))
    (hrun : run (stepWith me) p (.onStart :: after) = some q) (hhandled : q.1.handling = .idle) :
    Denoted p.1.started q.1 q.2 := by
  have hp : p.1.Numbered ∧ p.2.Numbered :=
    run_induction (fun p => p.1.Numbered ∧ p.2.Numbered) stepWith_numbered
      ⟨initial_numbered, NativeLib.initial_numbered⟩ hbefore
  obtain ⟨u, hu, hrest⟩ := run_cons_eq_some.mp hrun
  have hstart : u.1.handling = .stopped ∧ u.1.started = p.1.started :=
    step_onStart (show p.1.step me p.2 .onStart = some (u.1, u.2) from hu)
  have hq : (q.1.Numbered ∧ q.2.Numbered) ∧ Underway me True p.1.started q.1 q.2 := by
    refine run_induction_allowed (fun v => (v.1.Numbered ∧ v.2.Numbered) ∧ Underway me True p.1.started v.1 v.2)
      (fun v event => event.isIntent = false ∧ InOrder v event) (fun v event w hv hallowed hstep => ?_)
      ⟨stepWith_numbered p _ u hp hu, .inl hstart⟩ ((horder.2 u hu).and_mem hafter) hrest
    obtain ⟨⟨hnumbered, hlib⟩, hunderway⟩ := hv
    have hmoves : v.1.step me v.2 event = some (w.1, w.2) := hstep
    exact ⟨stepWith_numbered v event w ⟨hnumbered, hlib⟩ hstep,
      step_underway hunderway hnumbered hlib hallowed.1 hallowed.2 (fun _ => trivial) hmoves⟩
  exact hq.2.denoted hhandled

-- A start whose block finds no proxy, and ends before the proxy is assigned; later main() returns by itself.
def ordered : List Event :=
  [.stopDispatched 0, .stopReads 0, .stopReadsJob 0, .stopClears 0, .setProxy, .launchJob, .setJob,
    .jobDispatched 0, .jobReads 0, .jobStarts 0, .mainReturns 0]

theorem run_denoted_of_ordered :
    ∃ q, run (stepWith ()) (initial, NativeLib.initial) (.onStart :: ordered) = some q ∧ Denoted 0 q.1 q.2 := by
  have hbefore : run (stepWith ()) (initial, NativeLib.initial) [] = some (initial, NativeLib.initial) := rfl
  have hintents : ∀ event ∈ ordered, event.isIntent = false := by simp [ordered, Event.isIntent]
  refine ⟨_, rfl, run_denoted hbefore hintents ?_ rfl rfl⟩
  refine .cons trivial rfl (.cons trivial rfl (.cons trivial rfl (.cons (fun _ _ => ⟨nofun, nofun⟩) rfl ?_)))
  refine .cons trivial rfl (.cons (fun stop _ => ?_) rfl (.cons trivial rfl (.cons trivial rfl ?_)))
  · cases stop <;> exact trivial
  · refine .cons trivial rfl (.cons trivial rfl (.cons (fun _ => ⟨rfl, fun stop => ?_⟩) rfl (.cons ?_ rfl trivial)))
    · cases stop <;> exact id
    · intro _ _ stop _
      cases stop <;> rfl

-- The block of the start itself reads the proxy that comes behind it, and stops it.
theorem run_stopped_by_start :
    ∃ q, run (stepWith ()) (initial, NativeLib.initial)
        [.onStart, .setProxy, .launchJob, .setJob, .jobDispatched 0, .jobReads 0, .jobStarts 0,
          .stopDispatched 0, .stopReads 0, .stopCalls 0] = some q ∧
      q.1.handling = .idle ∧ ¬Denoted 0 q.1 q.2 := by
  refine ⟨_, rfl, rfl, fun hdenoted => ?_⟩
  have hopen := hdenoted.main { caller := (), number := 0 } rfl
  cases hopen

end ToInet.Rehabilitator.RehabilitatorService
