import ToInet.Circumvention.SmartConnect

namespace ToInet.Circumvention.SmartConnect

open ToInet.Lib

-- What must not happen between a cancel and the next handle.
def Effect.acts : Effect → Bool
  | .startTor _ | .switchTransport _ | .tick _ => true
  | _ => false

def Effect.delivers (handle : Nat) : Effect → Bool
  | .deliver other _ => other = handle
  | _ => false

-- Whether a cancel came after the last handle.
def cancelled : List Effect → Bool
  | [] => false
  | .handle _ :: _ => false
  | .cancel :: _ => true
  | _ :: log => cancelled log

def quiet : List Effect → Bool
  | [] => true
  | effect :: log => !(effect.acts && cancelled log) && quiet log

def deliveries (handle : Nat) (log : List Effect) : Nat := log.countP (Effect.delivers handle)

def postings (handle : Nat) (posted : List (Nat × Callback)) : Nat :=
  posted.countP fun callback => callback.1 = handle

theorem deliveries_deliver (handle other : Nat) (callback : Callback) (log : List Effect) :
    deliveries other (.deliver handle callback :: log) =
      deliveries other log + if handle = other then 1 else 0 := by
  by_cases h : handle = other <;> simp [deliveries, Effect.delivers, h]

theorem postings_append (handle other : Nat) (callback : Callback) (posted : List (Nat × Callback)) :
    postings other (posted ++ [(handle, callback)]) =
      postings other posted + if handle = other then 1 else 0 := by
  by_cases h : handle = other <;> simp [postings, h]

theorem postings_cons (handle other : Nat) (callback : Callback) (posted : List (Nat × Callback)) :
    postings other ((handle, callback) :: posted) =
      postings other posted + if handle = other then 1 else 0 := by
  by_cases h : handle = other <;> simp [postings, h]

-- What SmartConnect promises of a state and of the way to it.
structure Orderly (s : State) : Prop where
  quiet : quiet s.log = true
  oneGuard : ∀ handle other, (s.activity handle).live = true → (s.activity other).live = true →
    handle = other
  oneCallback : ∀ handle, deliveries handle s.log ≤ 1

-- A handle comes only when no coroutine is under way and no guard is live, and a cancel only
-- when neither a coroutine nor a tick is.
def InOrder (s : State) : Event → Prop
  | .actionStart _ connected _ => s.smartConnect = true → connected = false →
      ∀ handle, (s.activity handle).busy = false
  | .cancel => ∀ handle, (s.activity handle).pending = false ∧ (s.activity handle).ticking = false
  | _ => True

-- A handle that has not ended can still post one callback.
def owed (activity : Activity) : Nat := if activity.ended then 0 else 1

structure Consistent (c : Control) : Prop where
  quiet : SmartConnect.quiet c.log = true
  idle : cancelled c.log = true → ∀ handle, (c.activity handle).ended = true
  busy : ∀ handle other, (c.activity handle).busy = true → (c.activity other).busy = true →
    handle = other
  guard : ∀ handle, (c.activity handle).live = true → c.connectionGuard = some handle
  callbacks : ∀ handle,
    deliveries handle c.log + postings handle c.posted + owed (c.activity handle) ≤ 1
  fresh : ∀ handle, c.handles ≤ handle →
    deliveries handle c.log = 0 ∧ postings handle c.posted = 0 ∧ c.activity handle = .finished
  givenUp : ∀ handle, c.activity handle ≠ .guard true (some .giveUp)

-- What may become of a handle without a new promise.
structure Continues (before after : Activity) : Prop where
  busy : after.busy = true → before.busy = true
  ended : before.ended = true → after.ended = true
  finished : before = .finished → after = .finished
  givenUp : after ≠ .guard true (some .giveUp)

theorem continues_cancel (activity : Activity) : Continues activity activity.cancel := by
  cases activity with
  | finished => exact ⟨id, id, id, nofun⟩
  | coroutine statement => exact ⟨id, id, id, nofun⟩
  | guard live tick =>
      refine ⟨nofun, fun hended => ?_, nofun, nofun⟩
      cases live with
      | true => cases hended
      | false => exact hended

theorem continues_of_not_ended {before after : Activity} (h : before.ended = false)
    (hbusy : after.busy = true → before.busy = true) (hgivenUp : after ≠ .guard true (some .giveUp)) :
    Continues before after := by
  refine ⟨hbusy, fun hended => ?_, ?_, hgivenUp⟩
  · rw [h] at hended
    cases hended
  · rintro rfl
    cases h

theorem cancel_live (activity : Activity) : activity.cancel.live = false := by
  cases activity <;> rfl

theorem busy_of_live {activity : Activity} (h : activity.live = true) : activity.busy = true := by
  rw [Activity.busy, h, Bool.or_true]

namespace Consistent

variable {c : Control}

theorem acting (hc : Consistent c) {handle : Nat} (h : (c.activity handle).ended = false) :
    cancelled c.log = false := by
  rw [← Bool.not_eq_true]
  intro hcancelled
  rw [hc.idle hcancelled handle] at h
  cases h

theorem note (hc : Consistent c) {effect : Effect} (hacts : effect.acts = true)
    (hcancelled : cancelled c.log = false) : Consistent (c.note effect) := by
  have hlog : cancelled (effect :: c.log) = cancelled c.log := by
    cases effect <;> first | rfl | cases hacts
  have hdeliveries (handle : Nat) : deliveries handle (effect :: c.log) = deliveries handle c.log := by
    cases effect <;> first | rfl | cases hacts
  exact
    { hc with
      quiet := by simp [Control.note, SmartConnect.quiet, hcancelled, hc.quiet]
      idle := fun h => hc.idle (hlog ▸ h)
      callbacks := fun handle => (hdeliveries handle).symm ▸ hc.callbacks handle
      fresh := fun handle h => (hdeliveries handle).symm ▸ hc.fresh handle h }

-- A handle goes on, and no guard is live but the one that connectionGuard names.
theorem moveGuard (hc : Consistent c) {handle : Nat} {after : Activity}
    (h : Continues (c.activity handle) after) {connectionGuard : Option Nat}
    (hguard : ∀ other, ((c.move handle after).activity other).live = true →
      connectionGuard = some other) :
    Consistent { c.move handle after with connectionGuard } := by
  have hactivity (P : Activity → Activity → Prop) (hself : P (c.activity handle) after)
      (hsame : ∀ activity, P activity activity) (other : Nat) :
      P (c.activity other) ((c.move handle after).activity other) := by
    by_cases hother : other = handle
    · subst hother
      simpa [Control.move] using hself
    · simpa [Control.move, hother] using hsame _
  have hbusy := hactivity (fun before after => after.busy = true → before.busy = true) h.busy
    fun _ => id
  have hended := hactivity (fun before after => before.ended = true → after.ended = true) h.ended
    fun _ => id
  have hfinished := hactivity (fun before after => before = .finished → after = .finished) h.finished
    fun _ => id
  have hgivenUp := hactivity (fun before after => before ≠ .guard true (some .giveUp) →
    after ≠ .guard true (some .giveUp)) (fun _ => h.givenUp) fun _ => id
  refine
    { quiet := hc.quiet
      idle := fun hcancelled other => hended other (hc.idle hcancelled other)
      busy := fun first second hfirst hsecond =>
        hc.busy first second (hbusy first hfirst) (hbusy second hsecond)
      guard := hguard
      callbacks := fun other => ?_
      fresh := fun other hother => ?_
      givenUp := fun other => hgivenUp other (hc.givenUp other) }
  · have howed : owed ((c.move handle after).activity other) ≤ owed (c.activity other) := by
      have hother := hended other
      unfold owed
      split <;> split <;> simp_all
    exact Nat.le_trans (Nat.add_le_add_left howed _) (hc.callbacks other)
  · obtain ⟨hdeliveries, hpostings, hnone⟩ := hc.fresh other hother
    exact ⟨hdeliveries, hpostings, hfinished other hnone⟩

theorem move (hc : Consistent c) {handle : Nat} {after : Activity}
    (h : Continues (c.activity handle) after)
    (hlive : after.live = true → (c.activity handle).live = true) : Consistent (c.move handle after) := by
  apply hc.moveGuard h
  intro other hother
  apply hc.guard
  by_cases hhandle : other = handle
  · subst hhandle
    exact hlive (by simpa [Control.move] using hother)
  · simpa [Control.move, hhandle] using hother

-- The live guard is the one that is cancelled.
theorem stopConnectionGuard_live (hc : Consistent c) (handle : Nat) :
    (c.stopConnectionGuard.activity handle).live = false := by
  rw [← Bool.not_eq_true]
  intro hlive
  cases hguard : c.connectionGuard with
  | none =>
      rw [Control.stopConnectionGuard, hguard] at hlive
      rw [hc.guard handle hlive] at hguard
      cases hguard
  | some other =>
      rw [Control.stopConnectionGuard, hguard] at hlive
      by_cases hhandle : handle = other
      · subst hhandle
        simp [Control.move, cancel_live] at hlive
      · simp only [Control.move, Function.update_of_ne hhandle] at hlive
        exact hhandle (Option.some.inj (hguard.symm.trans (hc.guard handle hlive))).symm

theorem stopConnectionGuard (hc : Consistent c) : Consistent c.stopConnectionGuard := by
  have hlive := hc.stopConnectionGuard_live
  unfold Control.stopConnectionGuard at hlive ⊢
  split
  · rename_i other hguard
    simp only [hguard] at hlive
    refine hc.moveGuard (continues_cancel (c.activity other)) fun handle h => ?_
    rw [hlive handle] at h
    cases h
  · exact hc

theorem createGuard (hc : Consistent c) {handle : Nat} {statement : Coroutine}
    (h : c.activity handle = .coroutine statement) :
    Consistent { c.move handle (.guard true none) with connectionGuard := some handle } := by
  have hbusy : (c.activity handle).busy = true := by rw [h]; rfl
  have hcontinues : Continues (c.activity handle) (.guard true none) :=
    continues_of_not_ended (by rw [h]; rfl) (fun _ => hbusy) nofun
  apply hc.moveGuard hcontinues
  intro other hother
  by_cases hhandle : other = handle
  · rw [hhandle]
  · simp only [Control.move, Function.update_of_ne hhandle] at hother
    rw [hc.busy handle other hbusy (busy_of_live hother)]

-- A callback is posted by a handle that ends with it.
theorem finish (hc : Consistent c) {handle : Nat} {after : Activity} (callback : Callback)
    (hbefore : (c.activity handle).ended = false) (hafter : after.ended = true) :
    Consistent ((c.move handle after).post handle callback) := by
  have hbusy : ¬after.busy = true := by
    intro h
    rw [Activity.ended, h] at hafter
    cases hafter
  have hmove : Consistent (c.move handle after) :=
    hc.move (continues_of_not_ended hbefore (absurd · hbusy) (by rintro rfl; cases hafter))
      fun hlive => absurd (busy_of_live hlive) hbusy
  refine { hmove with callbacks := fun other => ?_, fresh := fun other hother => ?_ }
  · have hother := hmove.callbacks other
    have hself := hc.callbacks handle
    simp only [Control.post, Control.move] at hother ⊢
    rw [postings_append]
    by_cases hhandle : handle = other
    · subst hhandle
      rw [owed, hbefore, if_neg Bool.false_ne_true] at hself
      rw [Function.update_self, owed, if_pos hafter, if_pos rfl]
      omega
    · rw [if_neg hhandle]
      exact hother
  · obtain ⟨hdeliveries, hnone, hfinished⟩ := hmove.fresh other hother
    have hne : handle ≠ other := by
      rintro rfl
      rw [(hc.fresh handle hother).2.2] at hbefore
      cases hbefore
    refine ⟨hdeliveries, ?_, hfinished⟩
    exact (postings_append handle other callback c.posted).trans (by rw [if_neg hne]; exact hnone)

theorem enter (hc : Consistent c) {activity : Activity} (hlive : activity.live = false)
    (hbusy : activity.busy = true → ∀ handle, (c.activity handle).busy = false) :
    Consistent (c.enter activity) := by
  have hother (P : Activity → Prop) {handle : Nat} (h : P ((c.enter activity).activity handle))
      (hself : ¬P activity) : P (c.activity handle) := by
    by_cases hhandle : handle = c.handles
    · subst hhandle
      simp only [Control.enter, Control.move, Function.update_self] at h
      exact absurd h hself
    · simpa [Control.enter, Control.move, hhandle] using h
  refine
    { quiet := by simp [Control.enter, SmartConnect.quiet, Effect.acts, hc.quiet]
      idle := nofun
      busy := fun first second hfirst hsecond => ?_
      guard := fun handle h => hc.guard handle (hother (·.live = true) h (by simp [hlive]))
      callbacks := fun handle => ?_
      fresh := fun handle h => ?_
      givenUp := fun handle h => hc.givenUp handle
        (hother (· = .guard true (some .giveUp)) h (by rintro rfl; cases hlive)) }
  · cases hactivity : activity.busy with
    | false =>
        have hself : ¬activity.busy = true := by simp [hactivity]
        exact hc.busy first second (hother (·.busy = true) hfirst hself)
          (hother (·.busy = true) hsecond hself)
    | true =>
        have heq (handle : Nat) (h : ((c.enter activity).activity handle).busy = true) :
            handle = c.handles := by
          by_contra hne
          simp [Control.enter, Control.move, hne, hbusy hactivity handle] at h
        rw [heq first hfirst, heq second hsecond]
  · have hdeliveries : deliveries handle (c.enter activity).log = deliveries handle c.log := rfl
    rw [hdeliveries]
    by_cases hhandle : handle = c.handles
    · subst hhandle
      obtain ⟨hnone, hposted, _⟩ := hc.fresh c.handles (Nat.le_refl _)
      simp only [Control.enter, Control.move, Function.update_self, hnone, hposted, owed]
      split <;> omega
    · simpa [Control.enter, Control.move, hhandle] using hc.callbacks handle
  · have hle : c.handles + 1 ≤ handle := h
    have hne : handle ≠ c.handles := by omega
    simpa [Control.enter, Control.move, hne, deliveries, Effect.delivers] using
      hc.fresh handle (by omega)

theorem setGuard (hc : Consistent c) (connectionGuard : Option Nat)
    (h : ∀ handle, (c.activity handle).live = true → connectionGuard = some handle) :
    Consistent { c with connectionGuard } :=
  { hc with guard := h }

theorem deliver (hc : Consistent c) {handle : Nat} {callback : Callback}
    {posted : List (Nat × Callback)} (h : c.posted = (handle, callback) :: posted) :
    Consistent { c.note (.deliver handle callback) with posted } := by
  have hsum (other : Nat) :
      deliveries other (.deliver handle callback :: c.log) + postings other posted =
        deliveries other c.log + postings other c.posted := by
    rw [h, deliveries_deliver, postings_cons]
    omega
  refine
    { hc with
      quiet := by simp [Control.note, SmartConnect.quiet, Effect.acts, hc.quiet]
      callbacks := fun other => ?_
      fresh := fun other hother => ?_ }
  · have hother := hc.callbacks other
    rw [← hsum] at hother
    exact hother
  · obtain ⟨hdeliveries, hpostings, hfinished⟩ := hc.fresh other hother
    have hother := hsum other
    rw [hdeliveries, hpostings] at hother
    exact ⟨(Nat.add_eq_zero_iff.mp hother).1, (Nat.add_eq_zero_iff.mp hother).2, hfinished⟩

-- A handle that owes nothing delivers its callback at once.
theorem deliverNow (hc : Consistent c) {handle : Nat} (callback : Callback)
    (h : deliveries handle c.log + postings handle c.posted + owed (c.activity handle) = 0)
    (hhandle : handle < c.handles) : Consistent (c.note (.deliver handle callback)) := by
  refine
    { hc with
      quiet := by simp [Control.note, SmartConnect.quiet, Effect.acts, hc.quiet]
      callbacks := fun other => ?_
      fresh := fun other hother => ?_ }
  · have hother := hc.callbacks other
    rw [Control.note, deliveries_deliver]
    split
    · subst_vars
      simp only at h ⊢
      omega
    · exact hother
  · have hle : c.handles ≤ other := hother
    rw [Control.note, deliveries_deliver, if_neg (by omega)]
    exact hc.fresh other hle

theorem noteCancel (hc : Consistent c) (h : ∀ handle, (c.activity handle).ended = true) :
    Consistent (c.note .cancel) :=
  { hc with
    quiet := by simp [Control.note, SmartConnect.quiet, Effect.acts, hc.quiet]
    idle := fun _ => h }

end Consistent

theorem initial_consistent (transport : Transport) (bridges : String) (smartConnectTimeout now : Int) :
    Consistent (State.initial transport bridges smartConnectTimeout now).toControl where
  quiet := rfl
  idle := nofun
  busy := nofun
  guard := nofun
  callbacks := fun _ => Nat.zero_le 1
  fresh := fun _ _ => ⟨rfl, rfl, rfl⟩
  givenUp := nofun

variable {s t : State}

theorem crash_consistent (hs : Consistent s.toControl) : Consistent s.crash.toControl where
  quiet := hs.quiet
  idle := fun _ _ => rfl
  busy := nofun
  guard := nofun
  callbacks := fun handle =>
    Nat.le_trans (Nat.le_trans (Nat.le_add_right _ _) (Nat.le_add_right _ _)) (hs.callbacks handle)
  fresh := fun handle h => ⟨(hs.fresh handle h).1, rfl, rfl⟩
  givenUp := nofun

theorem handle_consistent (exception : Bool) (hs : Consistent s.toControl)
    (h : s.smartConnect = true → ∀ handle, (s.activity handle).busy = false) :
    Consistent (s.handle exception).toControl := by
  unfold State.handle
  split
  · rename_i hsmart
    exact hs.enter rfl fun _ => h hsmart
  · have hentered : Consistent (s.enter .finished) := hs.enter rfl nofun
    have hnoted : Consistent ((s.enter .finished).note (.startTor s.handles)) := hentered.note rfl rfl
    obtain ⟨hdeliveries, hpostings, _⟩ := hs.fresh s.handles (Nat.le_refl _)
    apply hnoted.deliverNow
    · have howed : owed ((s.enter .finished).activity s.handles) = 0 := by
        simp [Control.enter, Control.move, owed, Activity.ended, Activity.busy, Activity.pending,
          Activity.live, Activity.ticking]
      exact Nat.add_eq_zero_iff.mpr ⟨Nat.add_eq_zero_iff.mpr ⟨hdeliveries, hpostings⟩, howed⟩
    · exact Nat.lt_succ_self _

theorem actionStart_consistent (failsAt : Option Nat) (connected exception : Bool)
    (hs : Consistent s.toControl)
    (h : s.smartConnect = true → connected = false → ∀ handle, (s.activity handle).busy = false) :
    Consistent (s.actionStart failsAt connected exception).toControl := by
  unfold State.actionStart
  split
  · exact crash_consistent hs
  · rename_i hstart
    obtain rfl := (Prod.mk.inj hstart).1
    cases connected with
    | true => exact hs
    | false => exact handle_consistent exception hs fun hsmart => h hsmart rfl

namespace Consistent

theorem advance (hs : Consistent s.toControl) {handle : Nat} {effect : Effect} {after : Activity}
    (hacts : effect.acts = true) (hended : (s.activity handle).ended = false)
    (hbusy : after.busy = true → (s.activity handle).busy = true)
    (hlive : after.live = true → (s.activity handle).live = true)
    (hgivenUp : after ≠ .guard true (some .giveUp)) :
    Consistent ((s.note effect).move handle after) :=
  (hs.note hacts (hs.acting hended)).move (continues_of_not_ended hended hbusy hgivenUp) hlive

end Consistent

theorem stepCoroutine_consistent {handle : Nat} {statement : Coroutine} {event : CoroutineEvent}
    (hs : Consistent s.toControl) (hactivity : s.activity handle = .coroutine statement)
    (h : s.stepCoroutine handle statement event = some t) : Consistent t.toControl := by
  have hended : (s.activity handle).ended = false := by rw [hactivity]; rfl
  have hbusy : (s.activity handle).busy = true := by rw [hactivity]; rfl
  unfold State.stepCoroutine at h
  split at h
  · obtain rfl := Option.some.inj h
    exact hs.move (continues_of_not_ended hended (fun _ => hbusy) nofun) nofun
  · obtain rfl := Option.some.inj h
    exact hs.advance rfl hended (fun _ => hbusy) nofun nofun
  · obtain rfl := Option.some.inj h
    exact hs.advance rfl hended (fun _ => hbusy) nofun nofun
  · obtain rfl := Option.some.inj h
    exact hs.advance rfl hended (fun _ => hbusy) nofun nofun
  · obtain rfl := Option.some.inj h
    exact hs.move (continues_of_not_ended hended (fun _ => hbusy) nofun) nofun
  · split at h
    · obtain rfl := Option.some.inj h
      exact crash_consistent hs
    · rename_i hstart
      obtain rfl := (Prod.mk.inj hstart).1
      obtain rfl := Option.some.inj h
      exact hs.move (continues_of_not_ended hended (fun _ => hbusy) nofun) nofun
  · have hnoted : Consistent (s.note (.startTor handle)) := hs.note rfl (hs.acting hended)
    split at h
    · obtain rfl := Option.some.inj h
      exact hnoted.finish .stopTor hended rfl
    · obtain rfl := Option.some.inj h
      exact hnoted.move (continues_of_not_ended hended (fun _ => hbusy) nofun) nofun
  · obtain rfl := Option.some.inj h
    exact hs.createGuard hactivity
  · cases h

-- The guard that is named is cancelled, and nothing else.
theorem stopConnectionGuard_cases (c : Control) (handle : Nat) :
    c.stopConnectionGuard.activity handle = c.activity handle ∨
      c.stopConnectionGuard.activity handle = (c.activity handle).cancel := by
  unfold Control.stopConnectionGuard
  split
  · rename_i other _
    by_cases hhandle : handle = other
    · subst hhandle
      exact .inr (by simp [Control.move])
    · exact .inl (by simp [Control.move, hhandle])
  · exact .inl rfl

-- What a cancel leaves of an activity, it leaves of all.
theorem stopConnectionGuard_same {f : Activity → Bool} (hf : ∀ activity, f activity.cancel = f activity)
    (c : Control) (handle : Nat) : f (c.stopConnectionGuard.activity handle) = f (c.activity handle) := by
  obtain hsame | hcancelled := stopConnectionGuard_cases c handle
  · rw [hsame]
  · rw [hcancelled, hf]

theorem cancel_ticking (activity : Activity) : activity.cancel.ticking = activity.ticking := by
  cases activity <;> rfl

theorem cancel_pending (activity : Activity) : activity.cancel.pending = activity.pending := by
  cases activity <;> rfl

theorem not_ended_of_ticking {activity : Activity} (h : activity.ticking = true) :
    activity.ended = false := by
  rw [Activity.ended, h, Bool.not_true, Bool.and_false]

theorem not_ended_of_live {activity : Activity} (h : activity.live = true) : activity.ended = false := by
  rw [Activity.ended, busy_of_live h]
  rfl

theorem runTick_consistent {handle : Nat} (hs : Consistent s.toControl)
    (hactivity : s.activity handle = .guard true none) : Consistent (s.runTick handle).toControl := by
  have hlive : (s.activity handle).live = true := by rw [hactivity]; rfl
  have hended := not_ended_of_live hlive
  unfold State.runTick
  split
  · have hnoted : Consistent (s.note (.tick handle)) := hs.note rfl (hs.acting hended)
    have hguard : (s.note (.tick handle)).connectionGuard = some handle := hs.guard handle hlive
    have hstopped := hnoted.stopConnectionGuard_live
    simp only [Control.stopConnectionGuard, hguard] at hstopped ⊢
    have hcancelled : ((s.note (.tick handle)).activity handle).cancel = .guard false none :=
      congrArg Activity.cancel hactivity
    rw [hcancelled] at hstopped ⊢
    exact (hnoted.finish .completed hended rfl).setGuard none fun other hother =>
      absurd ((hstopped other).symm.trans hother) Bool.false_ne_true
  · split
    · exact hs
    · exact hs.advance rfl hended (fun _ => busy_of_live hlive) (fun _ => hlive) nofun

theorem pass_consistent {handle : Nat} {live : Bool} (hs : Consistent s.toControl)
    (hactivity : s.activity handle = .guard live (some .pass)) :
    Consistent (s.pass handle live).toControl := by
  have hticking : (s.activity handle).ticking = true := by rw [hactivity]; rfl
  have hended := not_ended_of_ticking hticking
  have hstopped : Consistent
      ((s.note (.tick handle)).move handle (.guard live (some (.stopped s.transport)))) := by
    apply hs.advance rfl hended
    · rw [hactivity]
      exact id
    · rw [hactivity]
      exact id
    · exact nofun
  unfold State.pass
  dsimp only
  split
  · exact hstopped
  · exact hstopped
  · exact hstopped
  · exact hstopped
  · exact hstopped
  · have hnoted : Consistent (s.note (.tick handle)) := hs.note rfl (hs.acting hended)
    have hcancelled := hnoted.stopConnectionGuard
    have hlive := hnoted.stopConnectionGuard_live handle
    have hended' : ((s.note (.tick handle)).stopConnectionGuard.activity handle).ended = false :=
      not_ended_of_ticking ((stopConnectionGuard_same cancel_ticking _ handle).trans hticking)
    rw [hlive]
    exact hcancelled.move (continues_of_not_ended hended' nofun nofun) nofun

theorem stepTick_consistent {handle : Nat} {live : Bool} {tick : Option Tick} {event : TickEvent}
    (hs : Consistent s.toControl) (hactivity : s.activity handle = .guard live tick)
    (h : s.stepTick handle live tick event = some t) : Consistent t.toControl := by
  have hmove (after : Option Tick) (effect : Effect) (hacts : effect.acts = true)
      (hended : (s.activity handle).ended = false) (hafter : after ≠ some .giveUp) :
      Consistent ((s.note effect).move handle (.guard live after)) := by
    refine hs.advance hacts hended ?_ ?_ ?_
    · rw [hactivity]
      cases live <;> exact id
    · rw [hactivity]
      cases live <;> exact id
    · intro hgivenUp
      exact hafter (Activity.guard.inj hgivenUp).2
  unfold State.stepTick at h
  split at h
  · split at h
    · rename_i hlive
      obtain rfl := Option.some.inj h
      subst hlive
      exact runTick_consistent hs hactivity
    · cases h
  · obtain rfl := Option.some.inj h
    exact pass_consistent hs hactivity
  · obtain rfl := Option.some.inj h
    exact hmove (some .startTransport) (.switchTransport handle) rfl
      (not_ended_of_ticking (by rw [hactivity]; rfl)) nofun
  · obtain rfl := Option.some.inj h
    have hnext (returned : Bool) :
        some (if returned then Tick.reconfigure else Tick.pass) ≠ some .giveUp := by
      cases returned <;> decide
    exact hmove (some _) (.tick handle) rfl (not_ended_of_ticking (by rw [hactivity]; rfl)) (hnext _)
  · obtain rfl := Option.some.inj h
    exact hmove none (.tick handle) rfl (not_ended_of_ticking (by rw [hactivity]; rfl)) nofun
  · obtain rfl := Option.some.inj h
    have hended : (s.activity handle).ended = false := not_ended_of_ticking (by rw [hactivity]; rfl)
    have hnoted : Consistent (s.note (.tick handle)) := hs.note rfl (hs.acting hended)
    cases live with
    | true => exact absurd hactivity (hs.givenUp handle)
    | false => exact hnoted.finish .stopTor hended rfl
  · cases h

theorem cancel_consistent (hs : Consistent s.toControl)
    (h : ∀ handle, (s.activity handle).pending = false ∧ (s.activity handle).ticking = false) :
    Consistent s.cancel.toControl := by
  apply hs.stopConnectionGuard.noteCancel
  intro handle
  rw [Activity.ended, Activity.busy, hs.stopConnectionGuard_live,
    stopConnectionGuard_same cancel_ticking, stopConnectionGuard_same cancel_pending, (h handle).1,
    (h handle).2]
  rfl

theorem step_consistent (s : State) (event : Event) (t : State) (hs : Consistent s.toControl)
    (hevent : InOrder s event) (h : s.step event = some t) : Consistent t.toControl := by
  unfold State.step at h
  split at h
  · cases h
  cases event with
  | actionStart failsAt connected exception =>
      obtain rfl := Option.some.inj h
      exact actionStart_consistent failsAt connected exception hs hevent
  | cancel =>
      obtain rfl := Option.some.inj h
      exact cancel_consistent hs hevent
  | stopTransport =>
      obtain rfl := Option.some.inj h
      exact hs
  | updateProgress progress =>
      obtain rfl := Option.some.inj h
      unfold State.updateProgress
      split <;> exact hs
  | elapse duration =>
      obtain rfl := Option.some.inj h
      exact hs
  | coroutine handle event =>
      dsimp only at h
      split at h
      · rename_i hactivity
        exact stepCoroutine_consistent hs hactivity h
      · cases h
  | tick handle event =>
      dsimp only at h
      split at h
      · rename_i hactivity
        exact stepTick_consistent hs hactivity h
      · cases h
  | deliver =>
      dsimp only at h
      split at h
      · rename_i hposted
        obtain rfl := Option.some.inj h
        exact hs.deliver hposted
      · cases h

-- In every run in which handles and cancels come in order, whatever AutoConf, the transports,
-- Tor and the ticks do: nothing acts between a cancel and the next handle, no two guards are
-- live, and no handle is answered twice.
theorem run_orderly (transport : Transport) (bridges : String) (smartConnectTimeout now : Int)
    (events : List Event) (s : State)
    (hevents : Allowed State.step InOrder (.initial transport bridges smartConnectTimeout now) events)
    (hrun : run State.step (.initial transport bridges smartConnectTimeout now) events = some s) :
    Orderly s := by
  have hs : Consistent s.toControl :=
    run_induction_allowed (fun s => Consistent s.toControl) InOrder
      (fun s event t hs hevent h => step_consistent s event t hs hevent h)
      (initial_consistent transport bridges smartConnectTimeout now) hevents hrun
  refine ⟨hs.quiet, fun handle other hhandle hother => ?_, fun handle => ?_⟩
  · exact hs.busy handle other (busy_of_live hhandle) (busy_of_live hother)
  · have hcallbacks := hs.callbacks handle
    omega

-- A handle whose guard is cancelled before it has ticked, and the handle of a second start: it falls back from a direct
-- connection to Snowflake, and Tor comes on.
def connectRun (handle : Nat) : List Event :=
  [.coroutine handle .openTunnel, .coroutine handle (.autoConf none), .coroutine handle .setBridges,
    .coroutine handle (.startTransport none), .coroutine handle (.startTor false), .coroutine handle .createGuard]

def fallbackRun (handle : Nat) : List Event :=
  connectRun handle ++
    [.elapse 31, .tick handle .run, .tick handle .pass, .tick handle .switch, .tick handle (.startTransport none),
      .tick handle (.reconfigure true), .updateProgress 100, .tick handle .run, .deliver]

def cancelledRun : List Event :=
  .actionStart none false false :: connectRun 0 ++ .cancel :: .stopTransport :: .actionStart none false false ::
    fallbackRun 1

theorem run_orderly_sample :
    ∃ s, run State.step (.initial .none "" 30 0) cancelledRun = some s ∧ s.handles = 2 ∧
      s.log.head? = some (.deliver 1 .completed) ∧ Orderly s := by
  have hevents : Allowed State.step InOrder (.initial .none "" 30 0) cancelledRun := by
    refine .cons (fun _ _ _ => rfl) rfl (.cons trivial rfl (.cons trivial rfl (.cons trivial rfl ?_)))
    refine .cons trivial rfl (.cons trivial rfl (.cons trivial rfl (.cons (fun handle => ?_) rfl ?_)))
    · cases handle <;> exact ⟨rfl, rfl⟩
    refine .cons trivial rfl (.cons (fun _ _ handle => ?_) rfl (allowed_of_forall fun event hevent t => ?_))
    · cases handle <;> rfl
    cases event with
    | actionStart failsAt connected exception => simp [fallbackRun, connectRun] at hevent
    | cancel => simp [fallbackRun, connectRun] at hevent
    | _ => trivial
  exact ⟨_, rfl, rfl, rfl, run_orderly .none "" 30 0 _ _ hevents rfl⟩

-- A cancel during AutoConf: startTor is called, the transport is switched and a guard is
-- created all the same.
theorem run_not_orderly :
    ∃ s, run State.step (.initial .none "" 30 0)
        [.actionStart none false false, .coroutine 0 .openTunnel, .cancel,
          .coroutine 0 (.autoConf none), .coroutine 0 .setBridges,
          .coroutine 0 (.startTransport none), .coroutine 0 (.startTor false),
          .coroutine 0 .createGuard] = some s ∧ ¬Orderly s := by
  refine ⟨_, rfl, fun h => ?_⟩
  exact absurd h.quiet (by decide)

end ToInet.Circumvention.SmartConnect
