import ToInet.Byedpi.ByeDpiRouter.Order
import ToInet.Lib.Transition

-- ByeDpiRouter.start and stop over time: what the instances have been sent, and what the router
-- knows about it.
namespace ToInet.Byedpi.ByeDpiRouter

open ToInet.Lib

inductive Sent where
  | start (intent : Intent)
  | stop (service : Nat)
deriving DecidableEq

structure State where
  routerJob : Bool
  listening : Bool
  usedInstances : Nat
  domainToPort : LinkedMap String Nat
  defaultPort : Nat
  sent : List Sent

namespace State

def initial : State :=
  { routerJob := false, listening := false, usedInstances := 0, domainToPort := LinkedMap.empty, defaultPort := 11081
    sent := [] }

-- A text that cannot be read is none. The call of startService with the number throwsAt throws.
inductive Event where
  | start (jsonObj : Option (LinkedMap String String)) (throwsAt : Option Nat) (binds : Bool)
  | stop (throwsAt : Option Nat)

def throws (throwsAt : Option Nat) (calls : Nat) : Bool := throwsAt.any fun k => k < calls

-- The calls in front of the one that throws.
def passing {α : Type} (throwsAt : Option Nat) (calls : List α) : List α := calls.take (throwsAt.getD calls.length)

section

variable (fold : Char → Char)

def start (s : State) (jsonObj : Option (LinkedMap String String)) (throwsAt : Option Nat) (binds : Bool) : State :=
  if s.routerJob then s
  else
    match jsonObj with
    | none => s
    | some rules =>
        let router := ByeDpiRouter.start fold rules
        let sent := s.sent ++ (passing throwsAt router.intents).map Sent.start
        if throws throwsAt router.intents.length then { s with sent }
        else
          -- The job ends at once when it cannot bind its socket, but it stays the job.
          { routerJob := true, listening := binds, usedInstances := router.intents.length
            domainToPort := router.domainToPort, defaultPort := router.defaultPort, sent }

def stop (s : State) (throwsAt : Option Nat) : State :=
  let sent := s.sent ++ (passing throwsAt (List.range s.usedInstances)).map Sent.stop
  { s with
    routerJob := false, listening := false, sent
    usedInstances := if throws throwsAt s.usedInstances then s.usedInstances else 0 }

def step (s : State) : Event → Option State
  | .start jsonObj throwsAt binds => some (s.start fold jsonObj throwsAt binds)
  | .stop throwsAt => some (s.stop throwsAt)

end

-- The instances that have been sent a START and no STOP since.
def unstopped (sent : List Sent) : List Nat :=
  sent.foldl (fun services intent =>
    match intent with
    | .start intent => intent.service :: services
    | .stop service => services.filter (· ≠ service)) []

section

variable (fold : Char → Char)

-- A start launches the instances of its rules, and sends the connections of their domains there.
def Works (s : State) : Prop :=
  ∀ rules, let t := s.start fold (some rules) none true
    t.listening = true ∧ t.sent = s.sent ++ (ByeDpiRouter.start fold rules).intents.map Sent.start ∧
      t.domainToPort = (ByeDpiRouter.start fold rules).domainToPort ∧
      t.defaultPort = (ByeDpiRouter.start fold rules).defaultPort

-- What a stop and what a start that has failed leave behind.
def Leaves (t : State) : Event → Prop
  | .stop _ => unstopped t.sent = []
  | .start .. => t.listening = false → t.Works fold

-- A start that gets to its calls gets through all of them and binds its socket, or fails in the first
-- one. The calls of a stop do not throw.
def Undisturbed (s : State) : Event → Prop
  | .start jsonObj throwsAt binds => s.routerJob = false → ∀ rules, jsonObj = some rules →
      passing throwsAt (ByeDpiRouter.start fold rules).intents = [] ∧
          throws throwsAt (ByeDpiRouter.start fold rules).intents.length = true ∨
        throws throwsAt (ByeDpiRouter.start fold rules).intents.length = false ∧ binds = true
  | .stop throwsAt => throws throwsAt s.usedInstances = false

structure Inv (s : State) : Prop where
  job : s.listening = s.routerJob
  idle : s.routerJob = false → s.usedInstances = 0
  used : ∀ service ∈ unstopped s.sent, service < s.usedInstances

end

theorem mem_unstopped_starts {sent : List Sent} {intents : List Intent} {service : Nat} :
    service ∈ unstopped (sent ++ intents.map Sent.start) ↔
      service ∈ unstopped sent ∨ ∃ intent ∈ intents, intent.service = service := by
  rw [unstopped, List.foldl_append, List.foldl_map, ← unstopped]
  generalize unstopped sent = services
  induction intents generalizing services with
  | nil => simp
  | cons intent intents ih =>
      rw [List.foldl_cons, ih]
      rw [List.mem_cons, List.exists_mem_cons_iff, or_assoc, or_left_comm, eq_comm]

theorem mem_unstopped_stops {sent : List Sent} {stops : List Nat} {service : Nat} :
    service ∈ unstopped (sent ++ stops.map Sent.stop) ↔ service ∈ unstopped sent ∧ service ∉ stops := by
  rw [unstopped, List.foldl_append, List.foldl_map, ← unstopped]
  generalize unstopped sent = services
  induction stops generalizing services with
  | nil => simp
  | cons stop stops ih =>
      rw [List.foldl_cons, ih]
      simp [and_assoc]

theorem passing_of_not_throws {α : Type} {throwsAt : Option Nat} {calls : List α}
    (h : throws throwsAt calls.length = false) : passing throwsAt calls = calls := by
  refine List.take_of_length_le ?_
  cases throwsAt with
  | none => exact Nat.le_refl _
  | some k => simpa [throws] using h

variable {fold : Char → Char} {s t : State} {event : Event}

-- The instances are numbered as they are launched.
theorem services_launched (cmds : List String) {launches : Launches}
    (h : launches.launched.map Intent.service = List.range launches.launched.length) :
    (cmds.foldl (launchCmd fold) launches).launched.map Intent.service =
      List.range (cmds.foldl (launchCmd fold) launches).launched.length := by
  induction cmds generalizing launches with
  | nil => exact h
  | cons cmd cmds ih =>
      rw [List.foldl_cons]
      refine ih ?_
      unfold launchCmd
      split
      · exact h
      · split
        · simp [h, List.range_succ]
        · exact h

theorem service_lt (rules : LinkedMap String String) :
    ∀ intent ∈ (ByeDpiRouter.start fold rules).intents,
      intent.service < (ByeDpiRouter.start fold rules).intents.length := by
  intro intent hintent
  have hservices : (ByeDpiRouter.start fold rules).intents.map Intent.service =
      List.range (ByeDpiRouter.start fold rules).intents.length := services_launched (uniqueCmds rules) rfl
  have hmem := List.mem_map_of_mem (f := Intent.service) hintent
  rw [hservices] at hmem
  exact List.mem_range.mp hmem

theorem works_of_no_job (h : s.routerJob = false) : s.Works fold := by
  intro rules
  have hcalls : passing none (ByeDpiRouter.start fold rules).intents = (ByeDpiRouter.start fold rules).intents :=
    passing_of_not_throws rfl
  simp [start, h, throws, hcalls]

-- What an undisturbed start does.
theorem start_cases {jsonObj : Option (LinkedMap String String)} {throwsAt : Option Nat} {binds : Bool}
    (h : s.Undisturbed fold (.start jsonObj throwsAt binds)) :
    s.start fold jsonObj throwsAt binds = s ∨ s.routerJob = false ∧ ∃ rules, s.start fold jsonObj throwsAt binds =
      { routerJob := true, listening := true, usedInstances := (ByeDpiRouter.start fold rules).intents.length
        domainToPort := (ByeDpiRouter.start fold rules).domainToPort
        defaultPort := (ByeDpiRouter.start fold rules).defaultPort
        sent := s.sent ++ (ByeDpiRouter.start fold rules).intents.map Sent.start } := by
  cases hjob : s.routerJob with
  | true => exact .inl (by simp [start, hjob])
  | false =>
      cases jsonObj with
      | none => exact .inl (by simp [start, hjob])
      | some rules =>
          obtain ⟨hnone, hthrows⟩ | ⟨hthrows, hbinds⟩ := h hjob rules rfl
          · left
            rw [start, if_neg (by simp [hjob])]
            simp only [hnone, hthrows, if_true, List.map_nil, List.append_nil]
          · exact .inr ⟨rfl, rules, by simp [start, hjob, hthrows, passing_of_not_throws hthrows, hbinds]⟩

theorem stop_eq {throwsAt : Option Nat} (h : s.Undisturbed fold (.stop throwsAt)) :
    s.stop throwsAt =
      { s with
        routerJob := false, listening := false, usedInstances := 0
        sent := s.sent ++ (List.range s.usedInstances).map Sent.stop } := by
  have hthrows : throws throwsAt s.usedInstances = false := h
  have hcalls : throws throwsAt (List.range s.usedInstances).length = false := by rwa [List.length_range]
  simp [stop, hthrows, passing_of_not_throws hcalls]

theorem unstopped_stop {throwsAt : Option Nat} (hinv : s.Inv) (h : s.Undisturbed fold (.stop throwsAt)) :
    unstopped (s.stop throwsAt).sent = [] := by
  rw [stop_eq h, List.eq_nil_iff_forall_not_mem]
  intro service hmem
  obtain ⟨hservice, hnot⟩ := mem_unstopped_stops.mp hmem
  exact hnot (List.mem_range.mpr (hinv.used service hservice))

theorem initial_inv : initial.Inv where
  job := rfl
  idle _ := rfl
  used := nofun

theorem step_inv (hinv : s.Inv) (h : s.Undisturbed fold event) (hstep : s.step fold event = some t) : t.Inv := by
  cases event with
  | start jsonObj throwsAt binds =>
      obtain rfl := Option.some.inj hstep
      obtain hsame | ⟨hjob, rules, hstart⟩ := start_cases h
      · rw [hsame]
        exact hinv
      · rw [hstart]
        refine { job := rfl, idle := nofun, used := fun service hmem => ?_ }
        obtain hold | ⟨intent, hintent, rfl⟩ := mem_unstopped_starts.mp hmem
        · have hlt := hinv.used service hold
          rw [hinv.idle hjob] at hlt
          exact absurd hlt (Nat.not_lt_zero _)
        · exact service_lt rules intent hintent
  | stop throwsAt =>
      obtain rfl := Option.some.inj hstep
      have hnone := unstopped_stop hinv h
      rw [stop_eq h] at hnone ⊢
      exact { job := rfl, idle := fun _ => rfl, used := hnone ▸ nofun }

theorem step_leaves (hinv : s.Inv) (h : s.Undisturbed fold event) (hstep : s.step fold event = some t) :
    t.Leaves fold event := by
  have ht := step_inv hinv h hstep
  cases event with
  | start jsonObj throwsAt binds => exact fun hlistening => works_of_no_job (ht.job ▸ hlistening)
  | stop throwsAt =>
      obtain rfl := Option.some.inj hstep
      exact unstopped_stop hinv h

-- In a run whose steps are all undisturbed, every stop leaves no instance without a STOP, and after
-- every start that has failed the next one works.
theorem run_leaves (fold : Char → Char) {events : List Event} (hrun : run (step fold) initial events = some s)
    (hevents : Allowed (step fold) (Undisturbed fold) initial (events ++ [event]))
    (hstep : s.step fold event = some t) :
    t.Leaves fold event := by
  obtain ⟨hfront, hlast⟩ := hevents.append hrun
  have hinv := run_induction_allowed Inv (Undisturbed fold) (fun _ _ _ => step_inv) initial_inv hfront hrun
  exact step_leaves hinv hlast.1 hstep

def launchedTwo : State := (initial.start Char.toLower (some overlapping) none true)

theorem run_leaves_overlapping : (launchedTwo.stop none).Leaves Char.toLower (.stop none) :=
  run_leaves Char.toLower
    (show run (step Char.toLower) initial [.start (some overlapping) none true] = some launchedTwo from rfl)
    ⟨fun _ _ _ => .inr ⟨rfl, rfl⟩, fun _ _ => ⟨rfl, fun _ _ => trivial⟩⟩ rfl

-- The second instance cannot be started. The first one is not known to the stop.
theorem not_run_leaves :
    ¬∀ (fold : Char → Char) (events : List Event) (event : Event) (s t : State),
      run (step fold) initial events = some s → s.step fold event = some t → t.Leaves fold event := by
  intro h
  have hstopped := h Char.toLower [.start (some overlapping) (some 1) true] (.stop none) _ _ rfl rfl
  have hleft : unstopped ((initial.start Char.toLower (some overlapping) (some 1) true).stop none).sent = [0] := by
    decide
  rw [Leaves, hleft] at hstopped
  cases hstopped

end State

end ToInet.Byedpi.ByeDpiRouter
