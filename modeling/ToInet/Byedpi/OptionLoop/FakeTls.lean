import ToInet.Byedpi.OptionLoop.Theorems
import ToInet.Byedpi.Packets.ChangeSni

-- The fake ClientHello that is left of the options of byedpi.
namespace ToInet.Byedpi.OptionLoop

open ToInet.Lib ToInet.Lib.Getopt ToInet.Lib.TlsExtension ToInet.Byedpi.Packets

variable {env : Environment}

-- No other option reads the fake ClientHello or changes it.
theorem handle_withSni (params : Params) (change : SniChange) {rez : Char} (optarg : Option Arg) (hn : rez ≠ 'n') :
    handle env (params.withSni change) (.option rez optarg) =
      (handle env params (.option rez optarg)).map fun out => out.withSni change := by
  simp only [handle]
  split
  all_goals first | rfl | exact bind_map fun _ => rfl | skip
  · cases env.getAddr (optarg.getD []) <;> rfl
  · cases env.getAddr (optarg.getD []) <;> rfl
  · split <;> rfl
  · split <;> rfl
  · exact absurd rfl hn
  · exact bind_map fun _ => by split <;> rfl

theorem handle_sniChange_eq {params out : Params} {rez : Char} {optarg : Option Arg} (hn : rez ≠ 'n')
    (hout : handle env params (.option rez optarg) = .ok out) : out.sniChange = params.sniChange := by
  have hkept : handle env (params.withSni params.sniChange) (.option rez optarg) = _ :=
    handle_withSni params params.sniChange optarg hn
  rw [show params.withSni params.sniChange = params from rfl, hout] at hkept
  have hsame : out = out.withSni params.sniChange := Except.ok.inj hkept
  exact (congrArg Params.sniChange hsame :)

-- The name of an option -n.
def sniName : Result → Option Bytes
  | .option 'n' optarg => some (utfChars (optarg.getD []))
  | _ => none

theorem handle_sniName {params out : Params} {result : Result} (hout : handle env params result = .ok out) :
    changeAll (sniName result).toList params.sniChange = .ok out.sniChange := by
  cases result with
  | unknown => exact absurd hout invalid_ne_ok
  | option rez optarg =>
      by_cases hn : rez = 'n'
      · subst hn
        rw [handle] at hout
        cases hchanged : params.sniChange.change (utfChars (optarg.getD [])) with
        | error error =>
            simp only [hchanged] at hout
            cases error with
            | refused => exact absurd hout invalid_ne_ok
            | undefined => cases hout
        | ok next =>
            simp only [hchanged] at hout
            obtain rfl := Except.ok.inj hout
            simp only [sniName, Option.toList_some, changeAll, List.foldlM_cons, hchanged]
            rfl
      · have hnone : sniName (.option rez optarg) = none := by
          rw [sniName]
          intro optarg' heq
          exact hn (Result.option.inj heq).1
        rw [hnone, handle_sniChange_eq hn hout]
        rfl

theorem parseOptions_sniChange {params out : Params} {results : List Result}
    (hout : parseOptions env params results = .ok out) :
    changeAll (results.filterMap sniName) params.sniChange = .ok out.sniChange := by
  induction results generalizing params with
  | nil =>
      obtain rfl := parseOptions_nil.mp hout
      rfl
  | cons result results ih =>
      obtain ⟨next, hnext, hrest⟩ := parseOptions_cons.mp hout
      have hfirst := handle_sniName hnext
      have hlater := ih hrest
      rw [List.filterMap_cons]
      cases hname : sniName result with
      | none =>
          rw [hname] at hfirst
          have hsame : params.sniChange = next.sniChange := Except.ok.inj hfirst
          rwa [hsame]
      | some name =>
          rw [hname, Option.toList_some, changeAll, List.foldlM_cons] at hfirst
          obtain ⟨change, hchange, hlast⟩ := bind_eq_ok.mp hfirst
          obtain rfl := Except.ok.inj hlast
          rw [changeAll, List.foldlM_cons, hchange]
          exact hlater

-- Whatever options byedpi accepts, its fake ClientHello stays one of the same length with the same other extensions,
-- and has the last name. The options for it are accepted exactly if the names fit in the room of the first name and
-- the padding, and none in front of the last takes it all. A name that is longer than the one in its place is written
-- all the same, and what stands behind it is pushed over the end of the buffer.
theorem main_fakeTls (env : Environment) (h : Hello) (argv : List Arg) :
    let hosts := (getopt spec argv.tail).filterMap sniName
    ((∃ change, changeAll hosts ⟨h.buffer, []⟩ = .ok change) ↔ Fitting h hosts) ∧
      changeAll hosts ⟨h.buffer, []⟩ ≠ .error .undefined ∧
      ∀ params, main env h.buffer argv = .ok params → changeAll hosts ⟨h.buffer, []⟩ = .ok params.sniChange ∧
        params.fakeTls.length = h.buffer.length ∧
        (∃ h', Renamed h (hosts.getLast?.elim h.name fun host => host.take (hostSize host)) h' ∧
          params.fakeTls = h'.buffer ∧ parseTls params.fakeTls = some (h.nameOffset + 9, h'.name.length) ∧
          (params.fakeTls.drop (h.nameOffset + 9)).take h'.name.length = h'.name) ∧
        (params.behindFakeTls = [] ↔ (sizes h hosts).IsChain (· ≥ ·)) := by
  intro hosts
  obtain ⟨hnot, hrefused⟩ | ⟨hfits, h', after, hrun, hrenamed, hbehind⟩ := changeAll_spec h hosts []
  · rw [hrefused]
    refine ⟨iff_of_false (by simp) hnot, by decide, fun params hmain => ?_⟩
    obtain ⟨out, hout, -⟩ := map_eq_ok.mp hmain
    have hrun : changeAll hosts ⟨h.buffer, []⟩ = .ok out.sniChange := parseOptions_sniChange hout
    rw [hrefused] at hrun
    cases hrun
  rw [hrun]
  refine ⟨iff_of_true ⟨_, rfl⟩ hfits, by simp, fun params hmain => ?_⟩
  obtain ⟨out, hout, rfl⟩ := map_eq_ok.mp hmain
  have hbound : (boundFamily (addLast out)).sniChange = out.sniChange := by
    have hlast : (addLast out).sniChange = out.sniChange := (congrArg Params.sniChange (addLast_frame out) :)
    rw [boundFamily, ← hlast]
    split <;> rfl
  have hsame : changeAll hosts ⟨h.buffer, []⟩ = .ok out.sniChange := parseOptions_sniChange hout
  have hchange : out.sniChange = ⟨h'.buffer, after⟩ := Except.ok.inj (hsame.symm.trans hrun)
  rw [hchange] at hbound
  have hbuffer : (boundFamily (addLast out)).fakeTls = h'.buffer := (congrArg SniChange.buffer hbound :)
  have hafter : (boundFamily (addLast out)).behindFakeTls = after := (congrArg SniChange.behind hbound :)
  have hroom := hrenamed.room
  have hoffset : h'.nameOffset = h.nameOffset := by
    rw [Hello.nameOffset, Hello.nameOffset, hrenamed.head, hrenamed.before]
  rw [hbound, hbuffer, hafter, hbehind]
  refine ⟨rfl, ?_, ⟨h', hrenamed, rfl, ?_⟩, and_iff_right rfl⟩
  · rw [Hello.length_buffer, Hello.length_buffer, Hello.paddingOffset, Hello.paddingOffset, hoffset, hrenamed.middle]
    omega
  · rw [← hoffset]
    exact parseTls_buffer h'

-- tls_data of packets.c
def tlsData : Hello where
  head :=
    [22, 3, 1, 2, 0, 1, 0, 1, 252, 3, 3, 3, 95, 111, 44, 237, 19, 34, 248, 220, 178, 242, 96, 72, 45, 114, 102, 111,
     87, 221, 19, 157, 27, 55, 220, 250, 54, 46, 186, 249, 146, 153, 58, 32, 249, 223, 12, 46, 138, 85, 137, 130, 49,
     99, 26, 239, 168, 190, 8, 88, 167, 163, 90, 24, 211, 150, 95, 4, 92, 180, 98, 175, 137, 215, 15, 139, 0, 62, 19,
     2, 19, 3, 19, 1, 192, 44, 192, 48, 0, 159, 204, 169, 204, 168, 204, 170, 192, 43, 192, 47, 0, 158, 192, 36, 192,
     40, 0, 107, 192, 35, 192, 39, 0, 103, 192, 10, 192, 20, 0, 57, 192, 9, 192, 19, 0, 51, 0, 157, 0, 156, 0, 61, 0,
     60, 0, 53, 0, 47, 0, 255, 1, 0]
  before := []
  kind := 0
  name := [119, 119, 119, 46, 119, 105, 107, 105, 112, 101, 100, 105, 97, 46, 111, 114, 103]
  middle :=
    [⟨11, [3, 0, 1, 2], by decide, by decide⟩,
     ⟨10, [0, 20, 0, 29, 0, 23, 0, 30, 0, 25, 0, 24, 1, 0, 1, 1, 1, 2, 1, 3, 1, 4], by decide, by decide⟩,
     ⟨16, [0, 12, 2, 104, 50, 8, 104, 116, 116, 112, 47, 49, 46, 49], by decide, by decide⟩,
     ⟨22, [], by decide, by decide⟩,
     ⟨23, [], by decide, by decide⟩,
     ⟨49, [], by decide, by decide⟩,
     ⟨13, [0, 40, 4, 3, 5, 3, 6, 3, 8, 7, 8, 8, 8, 9, 8, 10, 8, 11, 8, 4, 8, 5, 8, 6, 4, 1, 5, 1, 6, 1, 3, 3, 3, 1, 3,
        2, 4, 2, 5, 2, 6, 2], by decide, by decide⟩,
     ⟨43, [8, 3, 4, 3, 3, 3, 2, 3, 1], by decide, by decide⟩,
     ⟨45, [1, 1], by decide, by decide⟩,
     ⟨51, [0, 36, 0, 29, 0, 32, 17, 140, 184, 140, 232, 138, 8, 144, 30, 238, 25, 217, 221, 232, 212, 6, 177, 209, 226,
        171, 224, 22, 99, 214, 220, 218, 132, 164, 184, 75, 251, 14], by decide, by decide⟩]
  padding := List.replicate 172 0
  chello := by decide
  length_head := by decide +kernel
  types := by decide
  fits := by decide +kernel

-- The room for the name of the fake ClientHello, and a name that is one byte longer than the one in its place.
example : tlsData.room = 189 := by decide +kernel

example : (changeTlsSni (utfChars "docs.wikipedia.org".toList) tlsData.buffer).map SniChange.behind = .ok [0] := by
  decide +kernel

def twoNames : List Arg := ["byedpi", "-n", "example.org", "-n", "a.example"].map String.toList

theorem main_fakeTls_twoNames : ∃ params h', main loopbackOnly tlsData.buffer twoNames = .ok params ∧
    Renamed tlsData (utfChars "a.example".toList) h' ∧ params.fakeTls = h'.buffer ∧ params.behindFakeTls = [] := by
  have hok : (main loopbackOnly tlsData.buffer twoNames).isOk = true := by decide +kernel
  have hlast : (((getopt spec twoNames.tail).filterMap sniName).getLast?.elim tlsData.name fun host =>
      host.take (hostSize host)) = utfChars "a.example".toList := by decide +kernel
  have hshorter : (sizes tlsData ((getopt spec twoNames.tail).filterMap sniName)).IsChain (· ≥ ·) := by decide +kernel
  cases hmain : main loopbackOnly tlsData.buffer twoNames with
  | error code =>
      rw [hmain] at hok
      cases hok
  | ok params =>
      obtain ⟨-, -, hparams⟩ := main_fakeTls loopbackOnly tlsData twoNames
      obtain ⟨-, -, ⟨h', hrenamed, hbuffer, -⟩, hbehind⟩ := hparams params hmain
      exact ⟨params, h', rfl, hlast ▸ hrenamed, hbuffer, hbehind.mpr hshorter⟩

end ToInet.Byedpi.OptionLoop
