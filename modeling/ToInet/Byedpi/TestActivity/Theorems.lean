import ToInet.Byedpi.TestActivity

namespace ToInet.Byedpi.TestActivity

open ToInet.Lib

-- What holds of a test while the process lives: the setting has its value, or a restoration of
-- that value is to come.
structure Kept (value : String) (s : TestActivity) : Prop where
  early : s.test = .launched ∨ s.test = .begun → s.isTesting = false ∧ s.cancelled = false ∧ s.stops = []
  unsaved : Unsaved s.test → s.cmdArgs = value ∧ ∀ phase ∈ s.stops, Owes phase
  saved : ¬Unsaved s.test → s.savedCmd = value ∧ (s.cmdArgs = value ∨ Owed s)
  unwritten : Unwritten s.test → s.cmdArgs = value
  ended : s.test = .done → s.isTesting = true → .launched ∈ s.stops
  cleared : s.cancelled = true ∨ (∃ phase ∈ s.stops, phase ≠ .launched) → s.isTesting = false

variable {value : String} {s t : TestActivity}

theorem startTesting_kept (savedCmd : String) (cmds : List String) :
    Kept value (startTesting value savedCmd cmds) where
  early := fun _ => ⟨rfl, rfl, rfl⟩
  unsaved := fun _ => ⟨rfl, nofun⟩
  saved := fun h => absurd trivial h
  unwritten := fun _ => rfl
  ended := nofun
  cleared := fun _ => rfl

theorem not_unwritten_loop {index : Nat} {place : Place} (hhead : place ≠ .head) (hshowing : place ≠ .showing)
    (hwriting : place ≠ .writing) : ¬Unwritten (.loop index place) := by
  intro hunwritten
  unfold Unwritten at hunwritten
  split at hunwritten <;> simp_all

theorem mem_set_of_ne {stops : List StopPhase} {stop : Nat} {old new phase : StopPhase}
    (hstop : stops[stop]? = some old) (hphase : phase ∈ stops) (hne : phase ≠ old) :
    phase ∈ stops.set stop new := by
  obtain ⟨index, hindex⟩ := List.mem_iff_getElem?.mp hphase
  have hother : stop ≠ index := by
    rintro rfl
    rw [hstop] at hindex
    exact hne (Option.some.inj hindex).symm
  exact List.mem_iff_getElem?.mpr ⟨index, by rw [List.getElem?_set_ne hother]; exact hindex⟩

theorem mem_set_self {stops : List StopPhase} {stop : Nat} {old new : StopPhase}
    (hstop : stops[stop]? = some old) : new ∈ stops.set stop new :=
  List.mem_set (List.getElem?_eq_some_iff.mp hstop).1 new

namespace Kept

theorem stopTesting (h : Kept value s) : Kept value s.stopTesting := by
  unfold TestActivity.stopTesting
  split
  · rename_i htesting
    refine
      { early := fun hearly => ?_
        unsaved := fun hunsaved => ⟨(h.unsaved hunsaved).1, fun phase hphase => ?_⟩
        saved := fun hsaved => ⟨(h.saved hsaved).1, .inr (.inl htesting)⟩
        unwritten := h.unwritten
        ended := fun _ _ => List.mem_append_right _ List.mem_cons_self
        cleared := fun hcleared => h.cleared (hcleared.imp_right fun ⟨phase, hphase, hne⟩ => ?_) }
    · rw [(h.early hearly).1] at htesting
      cases htesting
    · obtain hold | hnew := List.mem_append.mp hphase
      · exact (h.unsaved hunsaved).2 phase hold
      · rw [List.mem_singleton.mp hnew]
        trivial
    · obtain hold | hnew := List.mem_append.mp hphase
      · exact ⟨phase, hold, hne⟩
      · exact absurd (List.mem_singleton.mp hnew) hne
  · exact h

-- The test goes on behind the assignment to savedCmd.
theorem move (h : Kept value s) {phase : TestPhase} (hsaved : ¬Unsaved s.test) (hphase : ¬Unsaved phase)
    (hunwritten : Unwritten phase → Unwritten s.test)
    (hdone : phase = .done → s.isTesting = true → .launched ∈ s.stops) :
    Kept value { s with test := phase } where
  early := by
    rintro (rfl | rfl)
    · exact absurd trivial hphase
    · exact absurd trivial hphase
  unsaved := fun hunsaved => absurd hunsaved hphase
  saved := fun _ => h.saved hsaved
  unwritten := fun hphase => h.unwritten (hunwritten hphase)
  ended := hdone
  cleared := h.cleared

theorem resume (h : Kept value s) {phase : TestPhase} (hsaved : ¬Unsaved s.test) (hphase : ¬Unsaved phase)
    (hunwritten : Unwritten phase → Unwritten s.test) (hdone : phase ≠ .done) : Kept value (s.resume phase) := by
  have hcompleted : s.cancelled = true → Kept value { s with test := .done } := by
    intro hcancelled
    refine h.move hsaved id False.elim fun _ htesting => ?_
    rw [h.cleared (.inl hcancelled)] at htesting
    cases htesting
  have hresumed : Kept value { s with test := phase } :=
    h.move hsaved hphase hunwritten fun hsame => absurd hsame hdone
  unfold TestActivity.resume
  split
  · rename_i hcancelled
    exact hcompleted hcancelled
  · exact hresumed

theorem branch (h : Kept value s) (stops : Bool) {phase : TestPhase} (hsaved : ¬Unsaved s.test)
    (hphase : ¬Unsaved phase) (hwritten : ¬Unwritten phase) (hdone : phase = .done → stops = true) :
    Kept value (s.branch stops phase) := by
  have htest : s.stopTesting.test = s.test := by
    unfold TestActivity.stopTesting
    split <;> rfl
  unfold TestActivity.branch
  cases stops with
  | true =>
      refine h.stopTesting.move (htest ▸ hsaved) hphase (fun hunwritten => absurd hunwritten hwritten) fun _ => ?_
      unfold TestActivity.stopTesting
      split
      · exact fun _ => List.mem_append_right _ List.mem_cons_self
      · rename_i hclear
        exact fun htesting => absurd htesting hclear
  | false =>
      refine h.move hsaved hphase (fun hunwritten => absurd hunwritten hwritten) fun hsame => ?_
      cases hdone hsame

-- A stop that has restored the setting, or clears the flag in front of that.
theorem setStop (h : Kept value s) {stop : Nat} {old new : StopPhase} (hstop : s.stops[stop]? = some old)
    (howes : Owes old → Owes new ∨ s.cmdArgs = value ∧ ¬Unsaved s.test) (hclear : s.isTesting = false) :
    Kept value { s with stops := s.stops.set stop new } := by
  have hold {phase : StopPhase} (hphase : phase ∈ s.stops.set stop new) : phase ∈ s.stops ∨ phase = new :=
    List.mem_or_eq_of_mem_set hphase
  have hmem : old ∈ s.stops := List.mem_of_getElem? hstop
  refine
    { early := fun hearly => ?_
      unsaved := fun hunsaved => ⟨(h.unsaved hunsaved).1, fun phase hphase => ?_⟩
      saved := fun hsaved => ⟨(h.saved hsaved).1, ?_⟩
      unwritten := h.unwritten
      ended := fun _ htesting => ?_
      cleared := fun _ => hclear }
  · rw [(h.early hearly).2.2] at hmem
    cases hmem
  · obtain hkept | rfl := hold hphase
    · exact (h.unsaved hunsaved).2 phase hkept
    · exact (howes ((h.unsaved hunsaved).2 old hmem)).resolve_right fun hrestored => hrestored.2 hunsaved
  · obtain hvalue | htesting | ⟨phase, hphase, howed⟩ := (h.saved hsaved).2
    · exact .inl hvalue
    · exact .inr (.inl htesting)
    · by_cases hsame : phase = old
      · obtain hnew | hrestored := howes (hsame ▸ howed)
        · exact .inr (.inr ⟨new, mem_set_self hstop, hnew⟩)
        · exact .inl hrestored.1
      · exact .inr (.inr ⟨phase, mem_set_of_ne hstop hphase hsame, howed⟩)
  · rw [show s.isTesting = true from htesting] at hclear
    cases hclear

theorem clear (h : Kept value s) {stop : Nat} (hstop : s.stops[stop]? = some .launched) :
    Kept value { s with isTesting := false } := by
  have hmem : .launched ∈ s.stops := List.mem_of_getElem? hstop
  refine
    { early := fun hearly => ⟨rfl, (h.early hearly).2⟩
      unsaved := h.unsaved
      saved := fun hsaved => ⟨(h.saved hsaved).1, .inr (.inr ⟨.launched, hmem, trivial⟩)⟩
      unwritten := h.unwritten
      ended := nofun
      cleared := fun _ => rfl }

theorem restore (h : Kept value s) (hsaved : ¬Unsaved s.test) : Kept value { s with cmdArgs := s.savedCmd } :=
  { h with
    unsaved := fun hunsaved => absurd hunsaved hsaved
    saved := fun _ => ⟨(h.saved hsaved).1, .inl (h.saved hsaved).1⟩
    unwritten := fun _ => (h.saved hsaved).1 }

theorem stop (h : Kept value s) {stop : Nat} (horder : InOrder s (.stop stop))
    (hstep : s.stepStop stop = some t) : Kept value t := by
  have hclear {phase : StopPhase} (hstop : s.stops[stop]? = some phase) (hphase : phase ≠ .launched) :
      s.isTesting = false := h.cleared (.inr ⟨phase, List.mem_of_getElem? hstop, hphase⟩)
  unfold stepStop at hstep
  split at hstep
  · rename_i hstop
    obtain rfl := Option.some.inj hstep
    exact (h.clear hstop).setStop hstop (fun _ => .inl trivial) rfl
  · rename_i hstop
    obtain rfl := Option.some.inj hstep
    have hsaved := horder hstop
    exact (h.restore hsaved).setStop hstop (fun _ => .inr ⟨(h.saved hsaved).1, hsaved⟩) (hclear hstop nofun)
  · rename_i hstop
    obtain rfl := Option.some.inj hstep
    have hset : Kept value { s with stops := s.stops.set stop .cancelled } :=
      h.setStop hstop False.elim (hclear hstop nofun)
    refine { hset with early := fun hearly => ?_, cleared := fun _ => hclear hstop nofun }
    have hnone := (h.early hearly).2.2
    rw [hnone] at hstop
    cases hstop
  · rename_i hstop
    obtain rfl := Option.some.inj hstep
    have hset : Kept value { s with stops := s.stops.set stop .done } :=
      h.setStop hstop False.elim (hclear hstop nofun)
    exact { hset with }
  · cases hstep

theorem test (h : Kept value s) {stops : Bool} (horder : InOrder s (.test stops))
    (hstep : s.stepTest stops = some t) : Kept value t := by
  unfold stepTest at hstep
  unfold InOrder at horder
  split at hstep
  · -- launched
    rename_i htest
    obtain rfl := Option.some.inj hstep
    obtain ⟨hclear, hcancelled, hstops⟩ := h.early (.inl htest)
    have hvalue := (h.unsaved (by rw [htest]; trivial)).1
    have hbegun : s.resume .begun = { s with test := .begun } := by simp [TestActivity.resume, hcancelled]
    rw [hbegun]
    exact ⟨fun _ => ⟨hclear, hcancelled, hstops⟩, fun _ => ⟨hvalue, by rw [hstops]; nofun⟩,
      fun hsaved => absurd trivial hsaved, fun _ => hvalue, nofun, fun _ => hclear⟩
  · -- begun
    rename_i htest
    obtain rfl := Option.some.inj hstep
    obtain ⟨hclear, hcancelled, hstops⟩ := h.early (.inr htest)
    have hvalue := (h.unsaved (by rw [htest]; trivial)).1
    refine ⟨nofun, fun _ => ⟨hvalue, by rw [hstops]; nofun⟩, fun hsaved => absurd trivial hsaved,
      fun _ => hvalue, nofun, ?_⟩
    rintro (hcancel | ⟨phase, hphase, _⟩)
    · rw [show s.cancelled = true from hcancel] at hcancelled
      cases hcancelled
    · rw [hstops] at hphase
      cases hphase
  · -- marked
    rename_i htest
    obtain rfl := Option.some.inj hstep
    have hvalue := (h.unsaved (by rw [htest]; trivial)).1
    exact ⟨nofun, False.elim, fun _ => ⟨hvalue, .inl hvalue⟩, fun _ => hvalue, nofun, h.cleared⟩
  · -- saved
    rename_i htest
    obtain rfl := Option.some.inj hstep
    exact h.resume (by rw [htest]; exact id) id (fun _ => by rw [htest]; trivial) nofun
  · -- head
    rename_i index htest
    obtain rfl := Option.some.inj hstep
    have hsaved : ¬Unsaved s.test := by rw [htest]; exact id
    split
    · exact h.move hsaved id (fun hunwritten => by rw [htest]; cases index <;> exact hunwritten) nofun
    · exact h.move hsaved id False.elim nofun
  · -- showing
    rename_i index htest
    obtain rfl := Option.some.inj hstep
    exact h.resume (by rw [htest]; exact id) id (fun hunwritten => by rw [htest]; cases index <;> exact hunwritten)
      nofun
  · -- writing
    rename_i index htest
    obtain rfl := Option.some.inj hstep
    have hsaved : ¬Unsaved s.test := by rw [htest]; exact id
    rw [htest] at horder
    exact
      { h.move hsaved (show ¬Unsaved (.loop index .written) from id)
          (fun hunwritten => absurd hunwritten (not_unwritten_loop nofun nofun nofun)) nofun with
        unsaved := False.elim
        saved := fun _ => ⟨(h.saved hsaved).1, .inr horder⟩
        unwritten := fun hunwritten => absurd hunwritten (not_unwritten_loop nofun nofun nofun) }
  · -- written
    rename_i htest
    obtain rfl := Option.some.inj hstep
    exact h.branch stops (by rw [htest]; exact id) id (not_unwritten_loop nofun nofun nofun) nofun
  · -- starting
    rename_i htest
    obtain rfl := Option.some.inj hstep
    exact h.resume (by rw [htest]; exact id) id
      (fun hunwritten => absurd hunwritten (not_unwritten_loop nofun nofun nofun)) nofun
  · -- started
    rename_i htest
    obtain rfl := Option.some.inj hstep
    exact h.branch stops (by rw [htest]; exact id) id (not_unwritten_loop nofun nofun nofun) nofun
  · -- checking
    rename_i htest
    obtain rfl := Option.some.inj hstep
    exact h.resume (by rw [htest]; exact id) id
      (fun hunwritten => absurd hunwritten (not_unwritten_loop nofun nofun nofun)) nofun
  · -- checked
    rename_i htest
    obtain rfl := Option.some.inj hstep
    exact h.branch stops (by rw [htest]; exact id) id (not_unwritten_loop nofun nofun nofun) nofun
  · -- stopping
    rename_i htest
    obtain rfl := Option.some.inj hstep
    exact h.resume (by rw [htest]; exact id) id
      (fun hunwritten => absurd hunwritten (not_unwritten_loop nofun nofun nofun)) nofun
  · -- stopped
    rename_i htest
    obtain rfl := Option.some.inj hstep
    exact h.branch stops (by rw [htest]; exact id) id (not_unwritten_loop nofun nofun nofun) nofun
  · -- resting
    rename_i htest
    obtain rfl := Option.some.inj hstep
    exact h.resume (by rw [htest]; exact id) id False.elim nofun
  · -- ending
    rename_i htest
    obtain rfl := Option.some.inj hstep
    exact h.branch true (by rw [htest]; exact id) id id fun _ => rfl
  · cases hstep

end Kept

-- When the process has died, the setting has its value and nothing is under way.
def Dead (value : String) (s : TestActivity) : Prop :=
  s.cmdArgs = value ∧ s.isTesting = false ∧ s.test = .done ∧ s.stops = []

theorem step_kept (s : TestActivity) (event : Event) (t : TestActivity) (h : Kept value s ∨ Dead value s)
    (horder : InOrder s event) (hstep : s.step event = some t) : Kept value t ∨ Dead value t := by
  obtain hkept | ⟨hvalue, hclear, hdone, hnone⟩ := h
  · cases event with
    | assign =>
        simp only [step] at hstep
        split at hstep
        · cases hstep
        · obtain rfl := Option.some.inj hstep
          exact .inl { hkept with }
    | test stops => exact .inl (hkept.test horder hstep)
    | stopTesting =>
        simp only [step] at hstep
        split at hstep
        · obtain rfl := Option.some.inj hstep
          exact .inl hkept.stopTesting
        · cases hstep
    | stop stop => exact .inl (hkept.stop horder hstep)
    | die =>
        obtain rfl := Option.some.inj hstep
        refine .inr ⟨?_, rfl, rfl, rfl⟩
        obtain hunwritten | hpaid := horder
        · exact hkept.unwritten hunwritten
        · by_cases hunsaved : Unsaved s.test
          · exact (hkept.unsaved hunsaved).1
          · exact (hkept.saved hunsaved).2.resolve_right hpaid
  · cases event with
    | assign =>
        simp only [step] at hstep
        split at hstep
        · cases hstep
        · obtain rfl := Option.some.inj hstep
          exact .inr ⟨hvalue, hclear, hdone, hnone⟩
    | test stops =>
        simp only [step, stepTest, hdone] at hstep
        cases hstep
    | stopTesting =>
        simp only [step, TestActivity.stopTesting, hclear] at hstep
        split at hstep
        · obtain rfl := Option.some.inj hstep
          exact .inr ⟨hvalue, hclear, hdone, hnone⟩
        · cases hstep
    | stop stop =>
        simp [step, stepStop, hnone] at hstep
    | die =>
        obtain rfl := Option.some.inj hstep
        exact .inr ⟨hvalue, rfl, rfl, rfl⟩

-- One strategy is tested to its end.
def passed : List Event :=
  [.assign] ++ List.replicate 17 (.test false) ++ [.stop 0, .stop 0, .stop 0, .stop 0]

end ToInet.Byedpi.TestActivity
