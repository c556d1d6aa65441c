import ToInet.Byedpi.ByeDpiProxyService.Steps

namespace ToInet.Byedpi.ByeDpiProxyService

open ToInet.Lib

variable {κ : Type} [DecidableEq κ] {me : κ} {s t : ByeDpiProxyService κ} {lib next : NativeLib κ}

-- A step keeps the invariant where the library does not refuse the job that enters it.
theorem step_kept (h : Kept me s lib) (hlib : lib.Numbered) {event : Event}
    (hclear : ∀ job, event = .enter job → (s.jobs job).phase = .begun → lib.gProxyRunning = false)
    (hstep : s.step me lib event = some (t, next)) : Kept me t next := by
  have hne {job : Nat} {phase : Phase κ} (hphase : (s.jobs job).phase = phase) (hdone : phase ≠ .done) :
      (s.jobs job).phase ≠ .done := hphase ▸ hdone
  have hdone (hstatus : s.status = .disconnected) (job : Nat) : (s.jobs job).phase = .done :=
    (h.done_of_disconnected hstatus job).2
  cases h.does hstep with
  | startConnected preferences hgranted hstatus => exact h
  | startLaunches preferences hstatus hfinished hvalid => exact h.launch hstatus hfinished.2.2 _
  | startFails hstatus hfinished =>
      exact .release (hdone hstatus) fun handler hhandler => h.waiting handler (List.mem_of_mem_tail hhandler)
  | stopWaits hgranted hlocked =>
      refine { h with waiting := fun handler hhandler => ?_, held := fun _ => hlocked }
      obtain hold | hnew := List.mem_append.mp hhandler
      · exact h.waiting handler hold
      · exact List.mem_singleton.mp hnew
  | stopIdle hstatus hfinished => exact .release (hdone hstatus) h.waiting
  | stopJoins job hstatus hfinished hproxy => exact h.stopJoins hproxy
  | dispatch job hphase =>
      have hlaunched := hne hphase nofun
      refine h.setPhase hlaunched fun hjoining => ?_
      have hcancelled := (h.not_ended hjoining hlaunched).1
      refine ⟨hcancelled, ?_⟩
      rw [hcancelled]
      cases (s.jobs job).router <;> trivial
  | refused job hphase hstart =>
      have hrunning := NativeLib.jniStartProxy_eq_none.mp hstart
      rw [hclear job rfl hphase] at hrunning
      cases hrunning
  | entered job main _ hphase hstart =>
      have hbegun := hne hphase nofun
      refine h.setPhase hbegun fun hjoining => ⟨(h.not_ended hjoining hbegun).1, ?_⟩
      obtain ⟨rfl, _⟩ := NativeLib.jniStartProxy_eq_some hstart
      exact ⟨rfl, (hlib.jniStartProxy hstart).2⟩
  | mainReturns job main hphase hshut =>
      have hmain := hne hphase nofun
      refine h.setPhase hmain fun hjoining => ?_
      rw [(h.not_ended hjoining hmain).2.2.2 main hphase] at hshut
      cases hshut
  | post job failed hphase =>
      have hreturned := hne hphase nofun
      exact h.setPhase hreturned fun hjoining => absurd hphase ((h.not_ended hjoining hreturned).2.1 failed)
  | complete job failed hphase =>
      obtain ⟨hjoining, hcancelled⟩ := h.joining_of_posted hphase
      rw [hcancelled]
      exact h.setPhase (hne hphase nofun) fun hnone => absurd hnone hjoining
  | endLoop job hphase hcancelled =>
      have hlooping := hne hphase nofun
      refine h.setPhase hlooping fun hjoining => ?_
      rw [(h.not_ended hjoining hlooping).1] at hcancelled
      cases hcancelled
  | joined job hjoining hdone => exact h.finishStop hjoining hdone
  | resume handler hgranted hstatus => exact .release (hdone hstatus) h.waiting

def KeepsMains (s t : ByeDpiProxyService κ) : Prop :=
  ∀ job main, (s.jobs job).phase = .main main → (t.jobs job).phase = .main main

omit [DecidableEq κ] in
theorem keepsMains_setPhase {job : Nat} {phase : Phase κ} (h : ∀ main, (s.jobs job).phase ≠ .main main) :
    KeepsMains s (s.setPhase job phase) := by
  intro other main hmain
  have hne : other ≠ job := by
    rintro rfl
    exact h main hmain
  simp only [setPhase, setJob, Function.update_of_ne hne]
  exact hmain

omit [DecidableEq κ] in
theorem keepsMains_cancel (job : Nat) :
    KeepsMains s (s.setJob job { s.jobs job with cancelled := true }) := by
  intro other main hmain
  by_cases hother : other = job
  · rw [hother] at hmain ⊢
    simp only [setJob, Function.update_self]
    exact hmain
  · simp only [setJob, Function.update_of_ne hother]
    exact hmain

-- What a step does to the library: nothing, a stop, also behind a start that fails, the entry into
-- main(), or its return.
theorem step_lib (h : Kept me s lib) {event : Event} (hstep : s.step me lib event = some (t, next)) :
    KeepsMains s t ∧ (next = lib ∨
        next = lib.jniStopProxy me ∧ (s.status ≠ .disconnected ∨ event = .onStart .invalid)) ∨
      (∃ job main, event = .enter job ∧ lib.jniStartProxy me = some (main, next) ∧
        t = s.setPhase job (.main main)) ∨
      ∃ job main, (s.jobs job).phase = .main main ∧ lib.isShut main = true ∧
        next = lib.mainReturns main := by
  have hnone (hstatus : s.status = .disconnected) (t : ByeDpiProxyService κ) : KeepsMains s t := by
    intro job main hmain
    rw [(h.done_of_disconnected hstatus job).2] at hmain
    cases hmain
  have hset {job : Nat} {phase : Phase κ} (hphase : (s.jobs job).phase = phase)
      (hmain : ∀ main, phase ≠ .main main) (last : Phase κ) : KeepsMains s (s.setPhase job last) :=
    keepsMains_setPhase fun main => hphase ▸ hmain main
  cases h.does hstep with
  | startConnected | stopWaits | joined | resume => exact .inl ⟨fun _ _ => id, .inl rfl⟩
  | startLaunches preferences hstatus => exact .inl ⟨hnone hstatus _, .inl rfl⟩
  | startFails hstatus => exact .inl ⟨hnone hstatus _, .inr ⟨rfl, .inr rfl⟩⟩
  | stopIdle hstatus => exact .inl ⟨hnone hstatus _, .inl rfl⟩
  | stopJoins job hstatus =>
      have hconnected : s.status ≠ .disconnected := by
        rw [hstatus]
        nofun
      exact .inl ⟨keepsMains_cancel job, .inr ⟨rfl, .inl hconnected⟩⟩
  | dispatch job hphase => exact .inl ⟨hset hphase nofun _, .inl rfl⟩
  | refused job hphase => exact .inl ⟨hset hphase nofun _, .inl rfl⟩
  | entered job main _ hphase hstart => exact .inr (.inl ⟨job, main, rfl, hstart, rfl⟩)
  | mainReturns job main hphase hshut => exact .inr (.inr ⟨job, main, hphase, hshut, rfl⟩)
  | post job failed hphase => exact .inl ⟨hset hphase nofun _, .inl rfl⟩
  | complete job failed hphase =>
      refine .inl ⟨?_, .inl rfl⟩
      split <;> exact hset hphase nofun .done
  | endLoop job hphase => exact .inl ⟨hset hphase nofun _, .inl rfl⟩

theorem step_numbered (h : Kept me s lib) (hlib : lib.Numbered) {event : Event}
    (hstep : s.step me lib event = some (t, next)) : next.Numbered := by
  obtain ⟨_, rfl | ⟨rfl, _⟩⟩ | ⟨_, main, _, hstart, _⟩ | ⟨_, main, _, _, rfl⟩ := step_lib h hstep
  · exact hlib
  · exact hlib.jniStopProxy me
  · exact (hlib.jniStartProxy hstart).1
  · exact hlib.mainReturns main

-- Without a start, a disconnected service has nothing to do.
theorem step_disconnected (h : Kept me s lib) (hstatus : s.status = .disconnected) {event : Event}
    (hstart : event.isStart = false) (hstep : s.step me lib event = some (t, next)) :
    t.status = .disconnected := by
  cases h.does hstep with
  | startConnected | startLaunches | startFails => cases hstart
  | complete job failed hphase =>
      rw [(h.done_of_disconnected hstatus job).2] at hphase
      cases hphase
  | stopIdle | joined | resume => rfl
  | _ => exact hstatus

-- No job is one for the router.
def Native (s : ByeDpiProxyService κ) : Prop :=
  ∀ job, (s.jobs job).router = false ∧ (s.jobs job).phase ≠ .looping

omit [DecidableEq κ] in
theorem initial_native : Native (initial : ByeDpiProxyService κ) := fun _ => ⟨rfl, nofun⟩

omit [DecidableEq κ] in
theorem Native.setJob (h : Native s) {job : Nat} {value : Job κ} (hrouter : value.router = false)
    (hphase : value.phase ≠ .looping) : Native (s.setJob job value) := by
  intro other
  by_cases hother : other = job
  · rw [hother]
    simp only [ByeDpiProxyService.setJob, Function.update_self]
    exact ⟨hrouter, hphase⟩
  · simp only [ByeDpiProxyService.setJob, Function.update_of_ne hother]
    exact h other

omit [DecidableEq κ] in
theorem Native.setPhase (h : Native s) {job : Nat} {phase : Phase κ} (hphase : phase ≠ .looping) :
    Native (s.setPhase job phase) := h.setJob (h job).1 hphase

theorem step_native (h : Kept me s lib) (hnative : Native s) {event : Event} (hrouter : event ≠ .onStart .router)
    (hstep : s.step me lib event = some (t, next)) : Native t := by
  cases h.does hstep with
  | startConnected | startFails | stopWaits | stopIdle | joined | resume => exact hnative
  | startLaunches preferences =>
      have hpreferences : preferences ≠ .router := fun hsame => hrouter (congrArg Event.onStart hsame)
      exact hnative.setJob (decide_eq_false hpreferences) nofun
  | stopJoins job => exact hnative.setJob (hnative job).1 (hnative job).2
  | dispatch job =>
      refine hnative.setPhase ?_
      rw [(hnative job).1]
      cases (s.jobs job).cancelled <;> nofun
  | refused job | entered job | mainReturns job | endLoop job => exact hnative.setPhase nofun
  | post job =>
      refine hnative.setPhase ?_
      cases (s.jobs job).cancelled <;> nofun
  | complete job =>
      have hset : Native (s.setPhase job .done) := hnative.setPhase nofun
      split <;> exact hset

-- Where the service has the library for itself, the flag is set for a main() of its own.
structure Sole (me : κ) (p : ByeDpiProxyService κ × NativeLib κ) : Prop where
  kept : Kept me p.1 p.2
  numbered : p.2.Numbered
  owned : p.2.gProxyRunning = true → ∃ job main, (p.1.jobs job).phase = .main main

def stepWith (me : κ) (p : ByeDpiProxyService κ × NativeLib κ) (event : Event) :
    Option (ByeDpiProxyService κ × NativeLib κ) := p.1.step me p.2 event

theorem step_sole (p : ByeDpiProxyService κ × NativeLib κ) (event : Event)
    (q : ByeDpiProxyService κ × NativeLib κ) (hp : Sole me p) (h : stepWith me p event = some q) :
    Sole me q := by
  obtain ⟨s, lib⟩ := p
  obtain ⟨t, next⟩ := q
  obtain ⟨hkept, hnumbered, howned⟩ := hp
  refine ⟨step_kept hkept hnumbered (fun job _ hbegun => ?_) h, step_numbered hkept hnumbered h, fun hrunning => ?_⟩
  · -- Only one job is under way, and this one is in front of main().
    rw [← Bool.not_eq_true]
    intro hrunning
    obtain ⟨other, main, hmain⟩ := howned hrunning
    have hother : s.proxyJob = some other := hkept.proxyJob_of_ne_done (by rw [hmain]; nofun)
    have hjob : s.proxyJob = some job := hkept.proxyJob_of_ne_done (by rw [hbegun]; nofun)
    have hsame := hother.symm.trans hjob
    obtain rfl := Option.some.inj hsame
    rw [hbegun] at hmain
    cases hmain
  · obtain ⟨hkeeps, rfl | ⟨rfl, _⟩⟩ | ⟨job, main, _, _, rfl⟩ | ⟨_, main, _, _, rfl⟩ := step_lib hkept h
    · obtain ⟨job, main, hmain⟩ := howned hrunning
      exact ⟨job, main, hkeeps job main hmain⟩
    · rw [NativeLib.jniStopProxy_gProxyRunning] at hrunning
      cases hrunning
    · refine ⟨job, main, ?_⟩
      simp only [setPhase, setJob, Function.update_self]
    · cases hrunning

theorem initial_sole : Sole me (initial, NativeLib.initial) :=
  ⟨initial_kept, NativeLib.initial_numbered, nofun⟩

-- Connected, with no stop that waits for the job.
def Lively (s : ByeDpiProxyService κ) : Prop := s.status = .connected ∧ s.joining = none

omit [DecidableEq κ] in
theorem not_lively_of_disconnected (h : s.status = .disconnected) : ¬Lively s := by
  rintro ⟨hconnected, _⟩
  rw [h] at hconnected
  cases hconnected

theorem running_iff_lively (h : Kept me s lib) (hfinished : Finished s) : Running s ↔ Lively s := by
  constructor
  · rintro ⟨_, hconnected⟩
    exact ⟨hconnected, hfinished.1⟩
  · rintro ⟨hconnected, _⟩
    obtain ⟨_, hsome⟩ | ⟨hdisconnected, _⟩ := h.status
    · exact ⟨hsome, hconnected⟩
    · rw [hconnected] at hdisconnected
      cases hdisconnected

-- The steps of the jobs and of the suspended handlers leave it at that.
theorem step_lively_iff (h : Kept me s lib) {event : Event} (hintent : event.isIntent = false)
    (hstep : s.step me lib event = some (t, next)) : Lively t ↔ Lively s := by
  cases h.does hstep with
  | startConnected | startLaunches | startFails | stopWaits | stopIdle | stopJoins => cases hintent
  | complete job failed hphase =>
      rw [(h.joining_of_posted hphase).2]
      exact Iff.rfl
  | joined job hjoining =>
      refine iff_of_false (not_lively_of_disconnected rfl) ?_
      rintro ⟨_, hnone⟩
      rw [hnone] at hjoining
      cases hjoining
  | resume handler hgranted hstatus =>
      exact iff_of_false (not_lively_of_disconnected rfl) (not_lively_of_disconnected hstatus)
  | _ => exact Iff.rfl

-- What the last intent leaves behind.
theorem step_intent_lively_iff (h : Kept me s lib) {event : Event} (hintent : event.isIntent = true)
    (hstep : s.step me lib event = some (t, next)) :
    Lively t ↔ event.isStart = true ∧ Undisturbed s event := by
  cases h.does hstep with
  | startConnected preferences hgranted hstatus =>
      constructor
      · rintro ⟨_, hjoining⟩
        refine ⟨rfl, (finished_iff h).mpr ?_, .inl hstatus⟩
        rw [locked, hjoining, hgranted]
        rfl
      · rintro ⟨_, hfinished, _⟩
        exact ⟨hstatus, hfinished.1⟩
  | startLaunches preferences hstatus hfinished hvalid =>
      exact iff_of_true ⟨rfl, rfl⟩ ⟨rfl, hfinished, .inr hvalid⟩
  | startFails hstatus =>
      refine iff_of_false (not_lively_of_disconnected rfl) ?_
      rintro ⟨_, _, hconnected | hvalid⟩
      · rw [hstatus] at hconnected
        cases hconnected
      · exact hvalid rfl
  | stopWaits hgranted hlocked =>
      -- The mutex is held by the handler that joins the job.
      refine iff_of_false ?_ fun hstart => Bool.false_ne_true hstart.1
      rintro ⟨_, hjoining⟩
      rw [locked, show s.joining = none from hjoining, hgranted] at hlocked
      cases hlocked
  | stopIdle => exact iff_of_false (not_lively_of_disconnected rfl) fun hstart => Bool.false_ne_true hstart.1
  | stopJoins =>
      refine iff_of_false ?_ fun hstart => Bool.false_ne_true hstart.1
      rintro ⟨_, ⟨⟩⟩
  | _ => cases hintent

theorem run_sole {p q : ByeDpiProxyService κ × NativeLib κ} {events : List Event} (hp : Sole me p)
    (hrun : run (stepWith me) p events = some q) : Sole me q :=
  run_induction (Sole me) step_sole hp hrun

theorem run_lively_iff {p q : ByeDpiProxyService κ × NativeLib κ} {events : List Event}
    (hp : Sole me p) (hevents : ∀ event ∈ events, event.isIntent = false)
    (hrun : run (stepWith me) p events = some q) : Lively q.1 ↔ Lively p.1 := by
  induction events generalizing p with
  | nil => rw [Option.some.inj hrun]
  | cons event events ih =>
      obtain ⟨u, hu, hrest⟩ := run_cons_eq_some.mp hrun
      have hstep := step_lively_iff hp.kept (hevents event List.mem_cons_self) hu
      exact (ih (step_sole p event u hp hu)
        (fun other hother => hevents other (List.mem_cons_of_mem _ hother)) hrest).trans hstep

-- When all handlers have finished, the proxy runs as the last intent says, exactly if that is not
-- a start that comes during a stop or finds preferences that throw.
theorem run_running_iff_isStart {before after : List Event} {last : Event}
    {p q : ByeDpiProxyService κ × NativeLib κ}
    (hbefore : run (stepWith me) (initial, NativeLib.initial) before = some p)
    (hlast : last.isIntent = true) (hafter : ∀ event ∈ after, event.isIntent = false)
    (hrun : run (stepWith me) p (last :: after) = some q) (hfinished : Finished q.1) :
    (Running q.1 ↔ last.isStart = true) ↔ Undisturbed p.1 last := by
  have hp := run_sole initial_sole hbefore
  obtain ⟨u, hu, hrest⟩ := run_cons_eq_some.mp hrun
  have hsole := step_sole p last u hp hu
  have hq := run_sole hsole hrest
  have hlively : Running q.1 ↔ last.isStart = true ∧ Undisturbed p.1 last :=
    calc Running q.1 ↔ Lively q.1 := running_iff_lively hq.kept hfinished
      _ ↔ Lively u.1 := run_lively_iff hsole hafter hrest
      _ ↔ last.isStart = true ∧ Undisturbed p.1 last := step_intent_lively_iff hp.kept hlast hu
  rw [hlively]
  cases last with
  | onStart preferences => simp [Event.isStart]
  | _ => simp [Event.isStart, Undisturbed]

theorem run_running_of_native :
    ∃ q, run (stepWith ()) (initial, NativeLib.initial) [.onStart .native, .dispatch 0, .enter 0] = some q ∧
      Running q.1 := by
  have hbefore : run (stepWith ()) (initial, NativeLib.initial) [] = some (initial, NativeLib.initial) := rfl
  refine ⟨_, rfl, ?_⟩
  have hrunning := run_running_iff_isStart hbefore
    (rfl : Event.isIntent (.onStart .native) = true)
    (by simp [Event.isIntent] : ∀ event ∈ [Event.dispatch 0, .enter 0], event.isIntent = false)
    rfl ⟨rfl, rfl, rfl⟩
  exact (hrunning.mpr ⟨⟨rfl, rfl, rfl⟩, .inr nofun⟩).mpr rfl

-- A start that comes while a stop waits for the job sees the service connected and does nothing.
theorem run_start_swallowed :
    ∃ q, run (stepWith ()) (initial, NativeLib.initial)
        [.onStart .native, .dispatch 0, .enter 0, .onStop, .onStart .native, .mainReturns 0, .post 0,
          .joined] = some q ∧
      Finished q.1 ∧ ¬Running q.1 := by
  refine ⟨_, rfl, ⟨rfl, rfl, rfl⟩, ?_⟩
  rintro ⟨_, hstatus⟩
  cases hstatus

end ToInet.Byedpi.ByeDpiProxyService
