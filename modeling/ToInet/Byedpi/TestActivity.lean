import ToInet.Lib.Transition

-- A strategy test of TestActivity: the coroutine of the test, and those of stopTesting.
namespace ToInet.Byedpi

-- Where the test stands with a strategy. At showing, starting, checking, stopping and resting it
-- is suspended; behind each of the last four but resting it may call stopTesting.
inductive Place where
  | head
  | showing
  | writing
  | written
  | starting
  | started
  | checking
  | checked
  | stopping
  | stopped
  | resting
deriving DecidableEq

-- Not dispatched, in front of isTesting = true, of the assignment to savedCmd, of the loop, in the
-- loop, in front of the last stopTesting, or completed.
inductive TestPhase where
  | launched
  | begun
  | marked
  | saved
  | loop (index : Nat) (place : Place)
  | ending
  | done
deriving DecidableEq

-- In front of isTesting = false, of the restoration of byedpi_cmd_args, of testJob.cancel, of
-- testJob = null, or past them.
inductive StopPhase where
  | launched
  | marked
  | restored
  | cancelled
  | done
deriving DecidableEq

-- cmdArgs and isTesting are the preferences byedpi_cmd_args and is_test_running, which outlive
-- the process. testJob says whether the field holds the test; assigned, that startTesting is over.
structure TestActivity where
  cmdArgs : String
  isTesting : Bool
  savedCmd : String
  testJob : Bool
  assigned : Bool
  cmds : List String
  test : TestPhase
  cancelled : Bool
  stops : List StopPhase
deriving DecidableEq

namespace TestActivity

-- startTesting has launched the test. savedCmd is what an earlier test has left there.
def startTesting (cmdArgs savedCmd : String) (cmds : List String) : TestActivity :=
  { cmdArgs, isTesting := false, savedCmd, testJob := false, assigned := false, cmds
    test := .launched, cancelled := false, stops := [] }

def stopTesting (s : TestActivity) : TestActivity :=
  if s.isTesting then { s with stops := s.stops ++ [.launched] } else s

-- A suspended test goes on, or completes when it has been cancelled.
def resume (s : TestActivity) (phase : TestPhase) : TestActivity :=
  { s with test := if s.cancelled then .done else phase }

-- A branch on the state of the service, which may call stopTesting.
def branch (s : TestActivity) (stops : Bool) (phase : TestPhase) : TestActivity :=
  let s := if stops then s.stopTesting else s
  { s with test := phase }

def stepTest (s : TestActivity) (stops : Bool) : Option TestActivity :=
  match s.test with
  | .launched => some (s.resume .begun)
  | .begun => some { s with isTesting := true, test := .marked }
  | .marked => some { s with savedCmd := s.cmdArgs, test := .saved }
  | .saved => some (s.resume (.loop 0 .head))
  | .loop index .head =>
      some { s with test := if index < s.cmds.length ∧ s.cancelled = false then .loop index .showing else .ending }
  | .loop index .showing => some (s.resume (.loop index .writing))
  | .loop index .writing => some { s with cmdArgs := s.cmds.getD index "", test := .loop index .written }
  | .loop index .written => some (s.branch stops (.loop index .starting))
  | .loop index .starting => some (s.resume (.loop index .started))
  | .loop index .started => some (s.branch stops (.loop index .checking))
  | .loop index .checking => some (s.resume (.loop index .checked))
  | .loop index .checked => some (s.branch stops (.loop index .stopping))
  | .loop index .stopping => some (s.resume (.loop index .stopped))
  | .loop index .stopped => some (s.branch stops (.loop index .resting))
  | .loop index .resting => some (s.resume (.loop (index + 1) .head))
  | .ending => some (s.branch true .done)
  | .done => none

def stepStop (s : TestActivity) (stop : Nat) : Option TestActivity :=
  match s.stops[stop]? with
  | some .launched => some { s with isTesting := false, stops := s.stops.set stop .marked }
  | some .marked => some { s with cmdArgs := s.savedCmd, stops := s.stops.set stop .restored }
  | some .restored => some { s with cancelled := s.cancelled || s.testJob, stops := s.stops.set stop .cancelled }
  | some .cancelled => some { s with testJob := false, stops := s.stops.set stop .done }
  | _ => none

-- The end of startTesting, the test, the button or back, a coroutine of stopTesting, or the death
-- of the process, after which onCreate clears is_test_running.
inductive Event where
  | assign
  | test (stops : Bool)
  | stopTesting
  | stop (stop : Nat)
  | die
deriving DecidableEq

def step (s : TestActivity) : Event → Option TestActivity
  | .assign => if s.assigned then none else some { s with testJob := true, assigned := true }
  | .test stops => s.stepTest stops
  | .stopTesting => if s.assigned then some s.stopTesting else none
  | .stop stop => s.stepStop stop
  | .die =>
      some { s with
        isTesting := false, savedCmd := "", testJob := false, assigned := true
        test := .done, cancelled := false, stops := [] }

-- No coroutine of the test or of stopTesting is under way.
def Over (s : TestActivity) : Prop := s.test = .done ∧ ∀ phase ∈ s.stops, phase = .done

-- A stop that has byedpi_cmd_args still to restore.
def Owes : StopPhase → Prop
  | .launched | .marked => True
  | _ => False

-- The test has not read byedpi_cmd_args.
def Unsaved : TestPhase → Prop
  | .launched | .begun | .marked => True
  | _ => False

-- The test has not written byedpi_cmd_args.
def Unwritten : TestPhase → Prop
  | .launched | .begun | .marked | .saved | .loop 0 .head | .loop 0 .showing | .loop 0 .writing => True
  | _ => False

-- A restoration is still to come.
def Owed (s : TestActivity) : Prop := s.isTesting = true ∨ ∃ phase ∈ s.stops, Owes phase

-- The test writes a strategy only in front of a restoration, a stop restores only what has been
-- saved, and the process dies only in front of the first strategy or behind the last restoration.
def InOrder (s : TestActivity) : Event → Prop
  | .test _ => match s.test with
    | .loop _ .writing => Owed s
    | _ => True
  | .stop stop => s.stops[stop]? = some .marked → ¬Unsaved s.test
  | .die => Unwritten s.test ∨ ¬Owed s
  | _ => True

end TestActivity

end ToInet.Byedpi
