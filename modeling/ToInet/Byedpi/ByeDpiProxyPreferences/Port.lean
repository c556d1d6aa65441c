import ToInet.Byedpi.ByeDpiProxyPreferences
import ToInet.Byedpi.OptionLoop.Theorems

-- The port of a command, for those that dial it and for byedpi.
namespace ToInet.Byedpi.ByeDpiProxyCmdPreferences

open ToInet.Lib ToInet.Lib.Getopt ToInet.Byedpi.OptionLoop

section

variable (digit : Char → Option Nat)

-- What the scan reads at an argument, if it comes that far; some none is an exception.
def reading (nextIsPort : Bool) (arg : Arg) : Option (Option Int) :=
  match if nextIsPort then toIntOrNull digit arg else none with
  | some p => some (some p)
  | none =>
      if arg = ['-', 'p'] ∨ arg = "--port".toList then none
      else if ['-', 'p'] <+: arg then (toIntOrNull digit (arg.drop 2)).map some
      else if "--port=".toList <+: arg then
        match substring arg 9 with
        | none => some none
        | some text => (toIntOrNull digit text).map some
      else none

def announcesPort (arg : Arg) : Bool := arg = ['-', 'p'] ∨ arg = "--port".toList

def readings : Bool → List Arg → List (Option Int)
  | _, [] => []
  | nextIsPort, arg :: args => (reading digit nextIsPort arg).toList ++ readings (announcesPort arg) args

end

-- The numbers of the port options that byedpi finds.
def portOptions (args : List Arg) : List Int := (getopt spec args.tail).filterMap portNumber

-- The first argument from which the scan can read a port is the first from which getopt_long takes
-- one, and they read the same. The state is that of getopt_long.
def meetsFirst (digit : Char → Option Nat) : State → Bool → List Arg → Bool
  | _, _, [] => true
  | state, nextIsPort, arg :: args =>
      match reading digit nextIsPort arg, (readArg spec state arg).2.filterMap portNumber with
      | none, [] => meetsFirst digit (readArg spec state arg).1 (announcesPort arg) args
      | some read, port :: _ => read = some port
      | _, _ => false

theorem portFrom_cons (digit : Char → Option Nat) (nextIsPort : Bool) (arg : Arg) (args : List Arg) :
    portFrom digit nextIsPort (arg :: args) =
      (reading digit nextIsPort arg).getD (portFrom digit (announcesPort arg) args) := by
  rw [portFrom, reading]
  cases if nextIsPort then toIntOrNull digit arg else none with
  | some p => rfl
  | none =>
      by_cases hannounce : arg = ['-', 'p'] ∨ arg = "--port".toList
      · have hnext : announcesPort arg = true := decide_eq_true hannounce
        simp only [if_pos hannounce, hnext, Option.getD_none]
      · have hnext : announcesPort arg = false := decide_eq_false hannounce
        simp only [if_neg hannounce, hnext]
        split
        · cases toIntOrNull digit (arg.drop 2) <;> rfl
        · split
          · cases substring arg 9 with
            | none => rfl
            | some text => cases htext : toIntOrNull digit text <;> simp only [htext, Option.map, Option.getD]
          · rfl

-- The scan stops at the first of its readings.
theorem portFrom_eq (digit : Char → Option Nat) (nextIsPort : Bool) (args : List Arg) :
    portFrom digit nextIsPort args = (readings digit nextIsPort args).head?.getD (some 1080) := by
  induction args generalizing nextIsPort with
  | nil => rfl
  | cons arg args ih =>
      rw [portFrom_cons, readings, ih]
      cases reading digit nextIsPort arg <;> rfl

theorem filterMap_finish (state : State) : (finish state).filterMap portNumber = [] := by
  cases state <;> rfl

theorem head?_readings {digit : Char → Option Nat} {state : State} {nextIsPort : Bool} {args : List Arg}
    (hmeets : meetsFirst digit state nextIsPort args = true) :
    (readings digit nextIsPort args).head? =
      ((readArgs spec state args).2.filterMap portNumber).head?.map some := by
  induction args generalizing state nextIsPort with
  | nil => rfl
  | cons arg args ih =>
      rw [meetsFirst] at hmeets
      rw [readings, readArgs, List.filterMap_append]
      split at hmeets
      · next hread hports => simpa [hread, hports] using ih hmeets
      · next hread hports =>
          rw [hread, hports]
          exact congrArg some (of_decide_eq_true hmeets)
      · cases hmeets

theorem head?_eq_getLast?_iff (ports : List Int) :
    some (ports.head?.getD 1080) = some (ports.getLast?.getD 1080) ↔ ports.head? = ports.getLast? := by
  cases ports with
  | nil => simp
  | cons port ports => simp [List.getLast?_cons]

-- Where the scan and byedpi meet at the first port, the scan is right exactly when that port is the
-- last one too.
theorem port_eq_iff (digit : Char → Option Nat) (env : Environment) (fakeTls : Bytes)
    (openProxyOnAllInterfaces : Bool) (cmd : List Char) (params : Params)
    (hmain : main env fakeTls (ofCmd openProxyOnAllInterfaces cmd).args = .ok params)
    (hmeets : meetsFirst digit .ready false (ofCmd openProxyOnAllInterfaces cmd).args.tail = true) :
    port digit (ofCmd openProxyOnAllInterfaces cmd) = some params.port ↔
      (portOptions (ofCmd openProxyOnAllInterfaces cmd).args).head? =
        (portOptions (ofCmd openProxyOnAllInterfaces cmd).args).getLast? := by
  have hlisten : params.port = (portOptions (ofCmd openProxyOnAllInterfaces cmd).args).getLast?.getD 1080 :=
    main_port hmain
  have hhead : (readings digit false (ofCmd openProxyOnAllInterfaces cmd).args).head? =
      (portOptions (ofCmd openProxyOnAllInterfaces cmd).args).head?.map some := by
    rw [portOptions, getopt, List.filterMap_append, filterMap_finish, List.append_nil, ← head?_readings hmeets]
    rfl
  have hport : port digit (ofCmd openProxyOnAllInterfaces cmd) =
      some ((portOptions (ofCmd openProxyOnAllInterfaces cmd).args).head?.getD 1080) := by
    rw [port, portFrom_eq, hhead]
    cases (portOptions (ofCmd openProxyOnAllInterfaces cmd).args).head? <;> rfl
  rw [hport, hlisten, head?_eq_getLast?_iff]

def asciiDigit (c : Char) : Option Nat := (digitVal c).filter (· < 10)

theorem port_eq_of_plain :
    ∃ params, main loopbackOnly [] (ofCmd false "-p 1081 -Kt -d1 -p1081".toList).args = .ok params ∧
      port asciiDigit (ofCmd false "-p 1081 -Kt -d1 -p1081".toList) = some params.port :=
  ⟨_, rfl, (port_eq_iff asciiDigit loopbackOnly [] false "-p 1081 -Kt -d1 -p1081".toList _ rfl (by decide)).mpr
    (by decide)⟩

-- The value of a long option is cut off in the wrong place.
theorem port_ne_of_long :
    ∃ params, main loopbackOnly [] (ofCmd false "--port=1081".toList).args = .ok params ∧
      port asciiDigit (ofCmd false "--port=1081".toList) ≠ some params.port :=
  ⟨_, rfl, by decide⟩

end ToInet.Byedpi.ByeDpiProxyCmdPreferences
