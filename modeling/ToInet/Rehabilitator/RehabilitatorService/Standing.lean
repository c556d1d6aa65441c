import ToInet.Rehabilitator.RehabilitatorService.Steps

namespace ToInet.Rehabilitator.RehabilitatorService

open ToInet.Byedpi ToInet.Lib

variable {κ : Type} [DecidableEq κ]

-- The numbers of the starts are handed out in order, and a start launches one job.
structure Numbered (s : RehabilitatorService κ) : Prop where
  proxy : ∀ owner start, (s.fields owner).proxy = some start → start < s.started
  stopping : ∀ stop start, (s.stops stop).phase = .stopping start → start < s.started
  jobs : ∀ job, (s.jobs job).phase ≠ .done → job < s.started ∧ s.handling ≠ .proxySet job
  handling : ∀ start, s.handling = .proxySet start → start < s.started

-- A job of the current instance that nothing has stopped. Where ends holds, its main() may have returned by itself,
-- behind all blocks of the instance.
def Alive (me : κ) (ends : Prop) (s : RehabilitatorService κ) (lib : NativeLib κ) (job : Job κ) : Prop :=
  job.owner = s.current ∧
    match job.phase with
    | .launched | .begun | .starting => True
    | .main main => main.caller = me ∧ lib.isShut main = false ∧ ∀ stop, ¬s.Pending (s.stops stop)
    | .done => ends ∧ ∀ stop, (s.stops stop).owner = s.current → (s.stops stop).phase = .done

-- What a block of stopInternal may be up to while a start stands.
def Harmless (s : RehabilitatorService κ) (start : Nat) (stop : Stop) : Prop :=
  stop.phase ≠ .stopping start ∧
    (stop.owner = s.current →
      BetweenReads stop.phase ∨ stop.phase = .joining start ∧ s.handling = .idle)

-- From the assignment to proxy on, a start stands.
structure Standing (me : κ) (ends : Prop) (start : Nat) (s : RehabilitatorService κ) (lib : NativeLib κ) : Prop where
  proxy : (s.fields s.current).proxy = some start
  others : ∀ owner, owner ≠ s.current → (s.fields owner).proxy ≠ some start
  stops : ∀ stop, s.Harmless start (s.stops stop)
  handling : s.handling = .proxySet start ∨
    (s.handling = .jobLaunched start ∨ s.handling = .idle ∧ (s.fields s.current).byedpiJob = some start) ∧
      Alive me ends s lib (s.jobs start)

variable {me : κ} {ends : Prop} {s t : RehabilitatorService κ} {lib next : NativeLib κ} {start : Nat}

theorem alive_of_launched {job : Job κ} (h : job = { owner := s.current, phase := .launched }) :
    Alive me ends s lib job := by
  rw [h]
  exact ⟨rfl, trivial⟩

-- A job stays alive through a step that brings no block in front of stopProxy() and moves none that is over, as long as
-- what is shut down of its caller has been shut down before or by a block that was in front of it.
theorem Alive.mono {job : Job κ} (h : Alive me ends s lib job) (hcurrent : t.current = s.current)
    (hpending : ∀ stop, t.Pending (t.stops stop) → ∃ stop, s.Pending (s.stops stop))
    (hshut : ∀ main, main.caller = me → next.isShut main = true →
      lib.isShut main = true ∨ ∃ stop, s.Pending (s.stops stop))
    (hover : (∀ stop, (s.stops stop).owner = s.current → (s.stops stop).phase = .done) →
      ∀ stop, (t.stops stop).owner = s.current → (t.stops stop).phase = .done) :
    Alive me ends t next job := by
  obtain ⟨howner, hphase⟩ := h
  refine ⟨howner.trans hcurrent.symm, ?_⟩
  revert hphase
  cases job.phase with
  | main main =>
      rintro ⟨hcaller, hopen, hnone⟩
      refine ⟨hcaller, ?_, fun stop hstop => ?_⟩
      · rw [← Bool.not_eq_true] at hopen ⊢
        intro hnext
        obtain hold | ⟨stop, hstop⟩ := hshut main hcaller hnext
        · exact hopen hold
        · exact hnone stop hstop
      · obtain ⟨other, hother⟩ := hpending stop hstop
        exact hnone other hother
  | done =>
      rintro ⟨hends, hdone⟩
      rw [hcurrent]
      exact ⟨hends, hover hdone⟩
  | _ => exact id

namespace Standing

-- A block of stopInternal goes on to another place.
theorem setStop (h : Standing me ends start s lib) {stop : Nat} {phase : StopPhase}
    (hmoves : (s.stops stop).phase ≠ .done) (hharmless : s.Harmless start { s.stops stop with phase })
    (hpending : s.Pending { s.stops stop with phase } → s.Pending (s.stops stop))
    (hshut : ∀ main, next.isShut main = true → lib.isShut main = true ∨ s.Pending (s.stops stop)) :
    Standing me ends start (s.setStop stop phase) next := by
  refine ⟨h.proxy, h.others, fun other => ?_, ?_⟩
  · by_cases hother : other = stop
    · rw [hother, setStop_self]
      exact hharmless
    · rw [setStop_of_ne phase hother]
      exact h.stops other
  · refine h.handling.imp_right fun ⟨hhandling, halive⟩ => ⟨hhandling, halive.mono rfl ?_ ?_ ?_⟩
    · intro other hother
      by_cases hsame : other = stop
      · rw [hsame, setStop_self] at hother
        exact ⟨stop, hpending hother⟩
      · rw [setStop_of_ne phase hsame] at hother
        exact ⟨other, hother⟩
    · exact fun main _ hmain => (hshut main hmain).imp_right fun hstop => ⟨stop, hstop⟩
    · intro hover other hother
      by_cases hsame : other = stop
      · rw [hsame, setStop_self] at hother
        exact absurd (hover stop hother) hmoves
      · rw [setStop_of_ne phase hsame] at hother ⊢
        exact hover other hother

-- A job goes on to another place.
theorem setJob (h : Standing me ends start s lib) {job : Nat} {phase : JobPhase κ}
    (hjob : job = start → Alive me ends s lib (s.jobs job) → Alive me ends s next { s.jobs job with phase })
    (hshut : ∀ main, next.isShut main = true → lib.isShut main = true) :
    Standing me ends start (s.setJob job phase) next := by
  refine ⟨h.proxy, h.others, h.stops, ?_⟩
  refine h.handling.imp_right fun ⟨hhandling, halive⟩ => ⟨hhandling, ?_⟩
  by_cases hsame : start = job
  · rw [hsame] at halive
    rw [hsame, setJob_self]
    exact hjob hsame.symm halive
  · rw [setJob_of_ne phase hsame]
    exact halive.mono rfl (fun stop hstop => ⟨stop, hstop⟩) (fun main _ hmain => .inl (hshut main hmain)) id

-- The assignment to proxy.
theorem setProxy (hnumbered : s.Numbered)
    (horder : ∀ stop, (s.stops stop).owner = s.current → BetweenReads (s.stops stop).phase) :
    Standing me ends s.started
      { s.setFields s.current { s.fields s.current with proxy := some s.started } with
        handling := .proxySet s.started, started := s.started + 1 } lib := by
  refine ⟨?_, fun owner howner hproxy => ?_, fun stop => ⟨fun hstopping => ?_, fun howner => .inl ?_⟩, .inl rfl⟩
  · exact congrArg Fields.proxy (setFields_self s s.current _)
  · have hsame := setFields_of_ne s { s.fields s.current with proxy := some s.started }
      (show owner ≠ s.current from howner)
    exact Nat.lt_irrefl _ (hnumbered.proxy owner _ ((congrArg Fields.proxy hsame).symm.trans hproxy))
  · exact Nat.lt_irrefl _ (hnumbered.stopping stop _ hstopping)
  · exact horder stop howner

-- A block of the current instance has read proxy, and not yet byedpiJob or the new one.
theorem owner_ne (h : Standing me ends start s lib) {stop owner : Nat} {phase : StopPhase}
    (hstop : s.stops stop = { owner, phase }) (hbetween : ¬BetweenReads phase)
    (hjoining : phase ≠ .joining start) : owner ≠ s.current := by
  intro howner
  have hharmless := (h.stops stop).2
  rw [hstop] at hharmless
  obtain hread | ⟨hjoins, _⟩ := hharmless howner
  · exact hbetween hread
  · exact hjoining hjoins

-- An earlier instance clears its proxy.
theorem clear (h : Standing me ends start s lib) {owner : Nat} (howner : owner ≠ s.current) :
    Standing me ends start (s.setFields owner { s.fields owner with proxy := none }) lib := by
  have hcurrent := setFields_of_ne s { s.fields owner with proxy := none } howner.symm
  refine ⟨?_, fun other hother => ?_, h.stops, ?_⟩
  · exact (congrArg Fields.proxy hcurrent).trans h.proxy
  · by_cases hsame : other = owner
    · rw [hsame, setFields_self]
      nofun
    · rw [setFields_of_ne s _ hsame]
      exact h.others other hother
  · refine h.handling.imp_right fun ⟨hhandling, halive⟩ => ⟨?_, halive⟩
    exact hhandling.imp_right fun ⟨hidle, hjob⟩ => ⟨hidle, (congrArg Fields.byedpiJob hcurrent).trans hjob⟩

end Standing

-- While the main thread is between two intents, no step but an intent ends a start.
theorem step_standing (h : Standing me ends start s lib) (hlib : lib.Numbered) {event : Event}
    (hintent : event.isIntent = false) (horder : InOrder (s, lib) event)
    (hends : s.mainStopped lib event = false → ends) (hstep : s.step me lib event = some (t, next)) :
    Standing me ends start t next := by
  have hhandling : s.handling ≠ .stopped ∧ s.handling ≠ .destroying := by
    obtain hset | ⟨hlaunched | ⟨hidle, _⟩, _⟩ := h.handling
    · rw [hset]
      exact ⟨nofun, nofun⟩
    · rw [hlaunched]
      exact ⟨nofun, nofun⟩
    · rw [hidle]
      exact ⟨nofun, nofun⟩
  cases step_does hstep with
  | onStart | onStop | onDestroy => cases hintent
  | setProxy hstopped => exact absurd hstopped hhandling.1
  | cancelScope hdestroying => exact absurd hdestroying hhandling.2
  | launchJob other hset =>
      have hother : other = start := by
        obtain hsame | ⟨hlaunched | ⟨hidle, _⟩, _⟩ := h.handling
        · rw [hset] at hsame
          exact Handling.proxySet.inj hsame
        · rw [hset] at hlaunched
          cases hlaunched
        · rw [hset] at hidle
          cases hidle
      refine ⟨h.proxy, h.others, fun stop => ?_, .inr ⟨.inl (hother ▸ rfl), ?_⟩⟩
      · refine ⟨(h.stops stop).1, fun howner => .inl ?_⟩
        obtain hbetween | ⟨_, hidle⟩ := (h.stops stop).2 howner
        · exact hbetween
        · rw [hset] at hidle
          cases hidle
      · have hjob : Function.update s.jobs other { owner := s.current, phase := .launched } start =
            { owner := s.current, phase := .launched } := by
          rw [hother, Function.update_self]
        exact alive_of_launched hjob
  | setJob other hlaunched =>
      obtain hset | ⟨hsame | ⟨hidle, _⟩, halive⟩ := h.handling
      · rw [hlaunched] at hset
        cases hset
      · rw [hlaunched] at hsame
        obtain rfl := Handling.jobLaunched.inj hsame
        refine ⟨?_, fun owner howner => ?_, fun stop => ?_, .inr ⟨.inr ⟨rfl, ?_⟩, halive⟩⟩
        · exact (congrArg Fields.proxy (setFields_self s s.current _)).trans h.proxy
        · have hsame := setFields_of_ne s { s.fields s.current with byedpiJob := some other } howner
          exact fun hproxy => h.others owner howner ((congrArg Fields.proxy hsame).symm.trans hproxy)
        · refine ⟨(h.stops stop).1, fun howner => ?_⟩
          exact ((h.stops stop).2 howner).imp_right fun hjoining => ⟨hjoining.1, rfl⟩
        · exact congrArg Fields.byedpiJob (setFields_self s s.current _)
      · rw [hlaunched] at hidle
        cases hidle
  | jobDispatched job owner hjob =>
      refine h.setJob (fun _ halive => ?_) fun _ => id
      have howner : owner = s.current := by
        have hsame := halive.1
        rw [hjob] at hsame
        exact hsame
      rw [cancelled, howner, hjob]
      simp only [ne_eq, not_true_eq_false, decide_false, Bool.false_eq_true, if_false]
      exact ⟨howner, trivial⟩
  | jobReads job owner hjob =>
      refine h.setJob (fun _ halive => ?_) fun _ => id
      have howner : owner = s.current := by
        have hsame := halive.1
        rw [hjob] at hsame
        exact hsame
      rw [howner, h.proxy, hjob]
      exact ⟨howner, trivial⟩
  | refused job hphase hstart =>
      refine h.setJob (fun hsame _ => ?_) fun _ => id
      rw [hsame] at horder
      have hclear := (horder h.proxy).1
      rw [NativeLib.jniStartProxy_eq_none.mp hstart] at hclear
      cases hclear
  | entered job main _ hphase hstart =>
      obtain ⟨rfl, _, hshut, _⟩ := NativeLib.jniStartProxy_eq_some hstart
      refine h.setJob (fun hsame halive => ?_) fun main hmain => ?_
      · rw [hsame] at horder
        exact ⟨halive.1, rfl, (hlib.jniStartProxy hstart).2, (horder h.proxy).2⟩
      · rw [NativeLib.isShut_congr hshut] at hmain
        exact hmain
  | mainReturns job main hmain =>
      refine h.setJob (fun hsame halive => ?_) fun _ => id
      obtain ⟨howner, hphase⟩ := halive
      rw [hmain] at hphase
      have hopen : s.mainStopped lib (.mainReturns job) = false := by
        rw [mainStopped, hmain]
        exact hphase.2.1
      rw [hsame] at hopen horder howner ⊢
      exact ⟨howner, hends (hsame ▸ hopen), horder h.proxy hopen⟩
  | stopDispatched stop owner hstop =>
      have howner : owner ≠ s.current := h.owner_ne hstop nofun nofun
      rw [cancelled, decide_eq_true howner, if_pos rfl]
      exact h.setStop (by rw [hstop]; nofun) ⟨nofun, fun _ => .inl trivial⟩ False.elim fun _ => .inl
  | stopReads stop owner hstop =>
      have howner : owner ≠ s.current := h.owner_ne hstop nofun nofun
      refine h.setStop (by rw [hstop]; nofun) ⟨?_, fun hsame => ?_⟩ (fun _ => ?_) fun _ => .inl
      · have hproxy := h.others owner howner
        cases hfield : (s.fields owner).proxy with
        | none => nofun
        | some other =>
            rintro hstopping
            rw [hfield, StopPhase.stopping.inj hstopping] at hproxy
            exact hproxy rfl
      · rw [hstop] at hsame
        exact absurd hsame howner
      · rw [hstop]
        trivial
  | stopCalls stop other hstop =>
      refine h.setStop (by rw [hstop]; nofun) ⟨nofun, fun _ => .inl trivial⟩ False.elim fun _ _ => .inr ?_
      rw [Pending, hstop]
      trivial
  | stopReadsJob stop owner hstop =>
      refine h.setStop (by rw [hstop]; nofun) ⟨?_, fun hsame => .inr ?_⟩ (fun hpending => ?_) fun _ => .inl
      · cases (s.fields owner).byedpiJob <;> nofun
      · have hassigned := horder hsame
        rw [hstop] at hsame
        obtain rfl : owner = s.current := hsame
        obtain hset | ⟨hlaunched | ⟨hidle, hjob⟩, _⟩ := h.handling
        · exact absurd hset (hassigned start).1
        · exact absurd hlaunched (hassigned start).2
        · rw [hjob]
          exact ⟨rfl, hidle⟩
      · revert hpending
        cases (s.fields owner).byedpiJob <;> exact False.elim
  | stopCancelled stop owner job hstop =>
      exact h.setStop (by rw [hstop]; nofun) ⟨nofun, fun _ => .inl trivial⟩ False.elim fun _ => .inl
  | stopJoins stop owner job hstop hcancelled hdone =>
      -- The block joins the job that stands, which completes behind it only.
      have howner : owner = s.current := by
        by_contra hne
        exact of_decide_eq_false hcancelled hne
      have hharmless := (h.stops stop).2
      rw [hstop] at hharmless
      obtain hbetween | ⟨hjoining, hidle⟩ := hharmless howner
      · exact hbetween.elim
      · rw [StopPhase.joining.inj hjoining] at hdone
        obtain hset | ⟨_, halive⟩ := h.handling
        · rw [hidle] at hset
          cases hset
        · have hphase := halive.2
          rw [hdone] at hphase
          have hover := hphase.2 stop
          rw [hstop] at hover
          cases hover howner
  | stopClears stop owner hstop =>
      have howner : owner ≠ s.current := h.owner_ne hstop nofun nofun
      have hset : Standing me ends start (s.setStop stop .done) lib :=
        h.setStop (by rw [hstop]; nofun) ⟨nofun, fun _ => .inl trivial⟩ False.elim fun _ => .inl
      exact hset.clear howner

end ToInet.Rehabilitator.RehabilitatorService
