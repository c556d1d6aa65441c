import ToInet.Byedpi.ByeDpiProxyPreferences
import ToInet.Byedpi.OptionLoop

-- ByeDpiInstanceService: the arguments of an instance, with an address of its own.
namespace ToInet.Byedpi.ByeDpiInstanceService

open ToInet.Lib ToInet.Lib.Getopt ToInet.Byedpi.OptionLoop

-- The next argument goes as well.
def skipsNext (arg : Arg) : Bool := arg = ['-', 'p'] ∨ arg = ['-', 'i']

def isDropped (arg : Arg) : Bool :=
  ['-', 'p'] <+: arg ∨ "--port=".toList <+: arg ∨ ['-', 'i'] <+: arg ∨ "--ip=".toList <+: arg

def keptArgs : Bool → List Arg → List Arg
  | _, [] => []
  | true, _ :: args => keptArgs false args
  | false, arg :: args =>
      if skipsNext arg then keptArgs true args
      else if isDropped arg then keptArgs false args
      else arg :: keptArgs false args

-- The vector of the START intent.
def newArgs (prefs : ByeDpiProxyCmdPreferences) (port : Int32) : List Arg :=
  keptArgs false prefs.args ++ [['-', 'i'], "127.0.0.1".toList] ++ [['-', 'p'], decimal port.toInt]

-- What looks like an option to the filter is one to getopt_long too: it stands where that reads an
-- option and not the value of one, and not behind "--". The state is that of getopt_long.
def dropsOptions : State → Bool → List Arg → Bool
  | _, _, [] => true
  | state, true, arg :: args => dropsOptions (readArg spec state arg).1 false args
  | state, false, arg :: args =>
      (!isDropped arg || state = .ready) && dropsOptions (readArg spec state arg).1 (skipsNext arg) args

-- "--" ends the options.
def isEnded (args : List Arg) : Bool := (readArgs spec .ready args.tail).1 = .ended

def loopback : Addr := .inet 0x7F000001

end ToInet.Byedpi.ByeDpiInstanceService
