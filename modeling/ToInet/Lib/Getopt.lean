import Mathlib.Data.List.Basic

-- getopt_long of C with its permutation of the arguments: the options of a command line.
namespace ToInet.Lib.Getopt

-- An argument is the text that a C string holds.
abbrev Arg := List Char

inductive HasArg where
  | no
  | required
  | optional
deriving DecidableEq

structure LongOption where
  name : Arg
  hasArg : HasArg
  val : Char
deriving DecidableEq

structure Spec where
  short : List (Char × HasArg)
  long : List LongOption

-- What a call returns: an option with its optarg, or '?' for all that is not one.
inductive Result where
  | option (val : Char) (optarg : Option Arg)
  | unknown
deriving DecidableEq

-- Between two arguments: an option may be waiting for its argument, and nothing is read any more
-- behind "--" or an error.
inductive State where
  | ready
  | pending (val : Char)
  | ended
  | failed
deriving DecidableEq

section

variable (spec : Spec)

def findShort (val : Char) : Option HasArg := (spec.short.find? fun short => short.1 = val).map Prod.snd

-- A name may be abbreviated as long as it stays unambiguous.
def findLong (name : Arg) : Option LongOption :=
  match spec.long.find? fun long => long.name = name with
  | some long => some long
  | none =>
      match spec.long.filter fun long => name.isPrefixOf long.name with
      | [] => none
      | long :: others =>
          if others.all fun other => other.hasArg = long.hasArg ∧ other.val = long.val then some long else none

-- The letters behind a single dash.
def readShort : Arg → State × List Result
  | [] => (.ready, [])
  | val :: text =>
      match findShort spec val with
      | none => (.failed, [.unknown])
      | some .no => ((readShort text).1, .option val none :: (readShort text).2)
      | some .required => if text = [] then (.pending val, []) else (.ready, [.option val (some text)])
      | some .optional => (.ready, [.option val (if text = [] then none else some text)])

-- What stands behind two dashes, a value of its own after the first '='.
def readLong (text : Arg) : State × List Result :=
  let value := (text.dropWhile (· ≠ '=')).tail?
  match findLong spec (text.takeWhile (· ≠ '=')) with
  | none => (.failed, [.unknown])
  | some long =>
      match long.hasArg, value with
      | .no, none => (.ready, [.option long.val none])
      | .no, some _ => (.failed, [.unknown])
      | .required, none => (.pending long.val, [])
      | .required, some text => (.ready, [.option long.val (some text)])
      | .optional, value => (.ready, [.option long.val value])

-- An argument that is no option is left to the end.
def readArg : State → Arg → State × List Result
  | .ready, ['-', '-'] => (.ended, [])
  | .ready, '-' :: '-' :: text => readLong spec text
  | .ready, '-' :: val :: text => readShort spec (val :: text)
  | .ready, _ => (.ready, [])
  | .pending val, arg => (.ready, [.option val (some arg)])
  | .ended, _ => (.ended, [])
  | .failed, _ => (.failed, [])

def readArgs : State → List Arg → State × List Result
  | state, [] => (state, [])
  | state, arg :: args =>
      let next := readArg spec state arg
      let rest := readArgs next.1 args
      (rest.1, next.2 ++ rest.2)

-- An option without the argument that it requires.
def finish : State → List Result
  | .pending _ => [.unknown]
  | _ => []

-- What the calls return one after the other, the -1 at the end apart.
def getopt (args : List Arg) : List Result :=
  let out := readArgs spec .ready args
  out.2 ++ finish out.1

end

variable {spec : Spec}

theorem readArgs_append (state : State) (args rest : List Arg) :
    readArgs spec state (args ++ rest) =
      ((readArgs spec (readArgs spec state args).1 rest).1,
        (readArgs spec state args).2 ++ (readArgs spec (readArgs spec state args).1 rest).2) := by
  induction args generalizing state with
  | nil => rfl
  | cons arg args ih => simp only [List.cons_append, readArgs, ih, List.append_assoc]

@[simp] theorem readArgs_ended (args : List Arg) : readArgs spec .ended args = (.ended, []) := by
  induction args with
  | nil => rfl
  | cons arg args ih => simp [readArgs, readArg, ih]

-- A letter with its argument behind it, whatever that looks like.
theorem readArgs_required {val : Char} (hval : val ≠ '-') (hfind : findShort spec val = some .required)
    (arg : Arg) : readArgs spec .ready [['-', val], arg] = (.ready, [.option val (some arg)]) := by
  simp [readArgs, readArg, readShort, hval, hfind]

theorem readArgs_no {val : Char} (hval : val ≠ '-') (hfind : findShort spec val = some .no) :
    readArgs spec .ready [['-', val]] = (.ready, [.option val none]) := by
  simp [readArgs, readArg, readShort, hval, hfind]

theorem unknown_of_readShort_failed {text : Arg} (hfailed : (readShort spec text).1 = .failed) :
    .unknown ∈ (readShort spec text).2 := by
  induction text with
  | nil => exact absurd hfailed (by simp [readShort])
  | cons val text ih =>
      rw [readShort] at hfailed ⊢
      split at hfailed
      · exact List.mem_singleton.mpr rfl
      · exact List.mem_cons_of_mem _ (ih hfailed)
      · split at hfailed <;> exact absurd hfailed nofun
      · exact absurd hfailed nofun

theorem unknown_of_readLong_failed {text : Arg} (hfailed : (readLong spec text).1 = .failed) :
    .unknown ∈ (readLong spec text).2 := by
  simp only [readLong] at hfailed ⊢
  split at hfailed
  · exact List.mem_singleton.mpr rfl
  · split at hfailed
    · exact absurd hfailed nofun
    · exact List.mem_singleton.mpr rfl
    · exact absurd hfailed nofun
    · exact absurd hfailed nofun
    · exact absurd hfailed nofun

theorem unknown_of_readArg_failed {state : State} {arg : Arg} (hstate : state ≠ .failed)
    (hfailed : (readArg spec state arg).1 = .failed) : .unknown ∈ (readArg spec state arg).2 := by
  unfold readArg at hfailed ⊢
  split at hfailed
  · exact absurd hfailed nofun
  · exact unknown_of_readLong_failed hfailed
  · exact unknown_of_readShort_failed hfailed
  · exact absurd hfailed nofun
  · exact absurd hfailed nofun
  · exact absurd hfailed nofun
  · exact absurd rfl hstate

-- Where nothing is read any more for an error, the error has been returned.
theorem unknown_of_readArgs_failed {state : State} {args : List Arg} (hstate : state ≠ .failed)
    (hfailed : (readArgs spec state args).1 = .failed) : .unknown ∈ (readArgs spec state args).2 := by
  induction args generalizing state with
  | nil => exact absurd hfailed hstate
  | cons arg args ih =>
      rw [readArgs] at hfailed ⊢
      by_cases hnext : (readArg spec state arg).1 = .failed
      · exact List.mem_append_left _ (unknown_of_readArg_failed hstate hnext)
      · exact List.mem_append_right _ (ih hnext hfailed)

end ToInet.Lib.Getopt
