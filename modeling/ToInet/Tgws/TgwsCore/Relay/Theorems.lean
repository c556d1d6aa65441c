import ToInet.Tgws.TgwsCore.FakeTls
import ToInet.Tgws.TgwsCore.Relay

namespace ToInet.Tgws

open ToInet.Lib

namespace TgwsCore

variable {platform : Platform} {prefs : ProxyPrefs} {network : Network} {core : TgwsCore}

theorem createSocket_soTimeout {host : String} {port : Int} {socket : Socket}
    (h : core.createSocket prefs network host port = some socket) : socket.soTimeout = 0 := by
  unfold createSocket at h
  dsimp only at h
  split at h
  · split at h
    · cases h
      rfl
    · obtain ⟨sb, -, h⟩ := Option.bind_eq_some_iff.mp h
      obtain ⟨-, h⟩ := Option.ite_none_right_eq_some.mp h
      cases h
      rfl
    · cases h
      rfl
  · cases h

theorem connectWebSocket_soTimeout {domain : String} {socket : Socket}
    (h : core.connectWebSocket prefs network domain = some socket) : socket.soTimeout = 0 := by
  obtain ⟨_, -, h⟩ := Option.bind_eq_some_iff.mp h
  obtain ⟨-, h⟩ := Option.ite_none_right_eq_some.mp h
  obtain ⟨sb, -, h⟩ := Option.bind_eq_some_iff.mp h
  obtain ⟨-, h⟩ := Option.ite_none_right_eq_some.mp h
  cases h
  rfl

theorem remoteSocket_soTimeout {delivery : Delivery} {socket : Socket}
    (h : core.remoteSocket prefs network delivery = some socket) : socket.soTimeout = 0 := by
  unfold remoteSocket at h
  split at h
  · rename_i wsSocket hfound
    obtain ⟨_, _, _, _, hconnect, _⟩ := List.findSome?_eq_some_iff.mp hfound
    cases h
    exact connectWebSocket_soTimeout hconnect
  · exact createSocket_soTimeout h

-- However a connection comes to its relay, only the reads from the client have a timeout.
theorem relay_timeouts {input : Input} {relay : Relay} (h : core.relay platform prefs network input = some relay) :
    relay.client.soTimeout = 10000 ∧ relay.remote.soTimeout = 0 ∧ relay.client.since = 0 ∧ relay.ended = none := by
  obtain ⟨delivery, -, h⟩ := Option.bind_eq_some_iff.mp h
  obtain ⟨remote, hremote, h⟩ := Option.bind_eq_some_iff.mp h
  cases h
  exact ⟨rfl, remoteSocket_soTimeout hremote, rfl, rfl⟩

end TgwsCore

theorem Leg.expired_iff {leg : Leg} {time : Nat} :
    leg.expired time = true ↔ leg.soTimeout ≠ 0 ∧ leg.since + leg.soTimeout < time := decide_eq_true_iff

namespace Relay

variable {relay next last : Relay} {event : Event} {events : List Event}

theorem sent_cons (side : Side) : sent side (event :: events) = returned side event ++ sent side events :=
  List.flatten_cons

-- What an event passes on is the first part of what the run has to pass on.
theorem complete_cons (hclient : next.client.written = relay.client.written ++ returned .client event)
    (hremote : next.remote.written = relay.remote.written ++ returned .remote event) :
    Complete relay (event :: events) last ↔ Complete next events last := by
  have hsent (side : Side) (written more : Bytes) (hwritten : written = more ++ returned side event) :
      written ++ sent side events = more ++ sent side (event :: events) := by
    rw [hwritten, sent_cons, List.append_assoc]
  constructor
  · rintro ⟨hended, htoRemote, htoClient⟩
    exact ⟨hended, htoRemote.trans (hsent _ _ _ hclient).symm, htoClient.trans (hsent _ _ _ hremote).symm⟩
  · rintro ⟨hended, htoRemote, htoClient⟩
    exact ⟨hended, htoRemote.trans (hsent _ _ _ hclient), htoClient.trans (hsent _ _ _ hremote)⟩

-- Nothing happens to a relay that has ended.
theorem run_ended (hended : relay.ended ≠ none) (hrun : run step relay events = some last) :
    events = [] ∧ last = relay := by
  cases events with
  | nil => exact ⟨rfl, (Option.some.inj hrun).symm⟩
  | cons event events =>
      obtain ⟨next, hstep, -⟩ := run_cons_eq_some.mp hrun
      obtain ⟨⟨hnone, -⟩, -⟩ := Option.ite_none_right_eq_some.mp hstep
      exact absurd hnone hended

-- Reads that may wait for 10 seconds on one side, and for any time on the other.
structure ClientTimeout (relay : Relay) : Prop where
  client : relay.client.soTimeout = 10000
  remote : relay.remote.soTimeout = 0

theorem ClientTimeout.expired_iff (h : relay.ClientTimeout) (time : Nat) :
    relay.client.expired time = true ∨ relay.remote.expired time = true ↔ relay.client.since + 10000 < time := by
  rw [Leg.expired_iff, Leg.expired_iff, h.client, h.remote]
  omega

-- A silent client ends the relay, with what has been passed on so far.
theorem step_silenced (h : relay.ClientTimeout) (hlate : relay.client.since + 10000 < event.time)
    (hstep : relay.step event = some next) : next.ended = some .silence := by
  obtain ⟨-, hmoves⟩ := Option.ite_none_right_eq_some.mp hstep
  rw [if_pos ((h.expired_iff event.time).mpr hlate)] at hmoves
  cases hmoves
  rfl

-- While the client is heard, an event passes on what was read, and ends the relay only where a side
-- closes or fails.
structure Goes (relay : Relay) (event : Event) (next : Relay) : Prop where
  timeout : next.ClientTimeout
  toRemote : next.client.written = relay.client.written ++ returned .client event
  toClient : next.remote.written = relay.remote.written ++ returned .remote event
  since : next.client.since = heardAt relay.client.since event
  ended : next.ended ≠ some .silence

theorem happens_goes {time : Nat} {happening : Happening} (h : relay.ClientTimeout) (hended : relay.ended = none)
    (hhappens : happens { relay with now := time } happening = some next) :
    Goes relay { time, happening } next := by
  cases happening with
  | nothing =>
      cases hhappens
      refine ⟨⟨h.client, h.remote⟩, (List.append_nil _).symm, (List.append_nil _).symm, rfl, ?_⟩
      simp only [hended, ne_eq, reduceCtorEq, not_false_iff]
  | chunk side data later =>
      obtain ⟨-, hmoves⟩ := Option.ite_none_right_eq_some.mp hhappens
      cases hmoves
      have hrunning : relay.ended ≠ some .silence := by simp only [hended, ne_eq, reduceCtorEq, not_false_iff]
      cases side with
      | client => exact ⟨⟨h.client, h.remote⟩, rfl, (List.append_nil _).symm, rfl, hrunning⟩
      | remote => exact ⟨⟨h.client, h.remote⟩, (List.append_nil _).symm, rfl, rfl, hrunning⟩
  | closes side =>
      obtain ⟨-, hmoves⟩ := Option.ite_none_right_eq_some.mp hhappens
      cases hmoves
      exact ⟨⟨h.client, h.remote⟩, (List.append_nil _).symm, (List.append_nil _).symm, rfl, nofun⟩
  | fails side =>
      cases hhappens
      exact ⟨⟨h.client, h.remote⟩, (List.append_nil _).symm, (List.append_nil _).symm, rfl, nofun⟩

theorem step_heard (h : relay.ClientTimeout) (hheard : event.time ≤ relay.client.since + 10000)
    (hstep : relay.step event = some next) : Goes relay event next := by
  obtain ⟨⟨hended, -⟩, hmoves⟩ := Option.ite_none_right_eq_some.mp hstep
  rw [if_neg ((h.expired_iff event.time).not.mpr (Nat.not_lt.mpr hheard))] at hmoves
  exact happens_goes h hended hmoves

theorem complete_iff_heard (h : relay.ClientTimeout) (hended : relay.ended ≠ some .silence)
    (hrun : run step relay events = some last) :
    Complete relay events last ↔ ClientHeard relay.client.since events := by
  induction events generalizing relay with
  | nil =>
      obtain rfl := Option.some.inj hrun
      exact iff_of_true ⟨hended, (List.append_nil _).symm, (List.append_nil _).symm⟩ trivial
  | cons event events ih =>
      obtain ⟨next, hstep, hrest⟩ := run_cons_eq_some.mp hrun
      by_cases hheard : event.time ≤ relay.client.since + 10000
      · obtain ⟨htimeout, htoRemote, htoClient, hsince, hrunning⟩ := step_heard h hheard hstep
        rw [complete_cons htoRemote htoClient, ih htimeout hrunning hrest, hsince]
        exact (and_iff_right hheard).symm
      · -- The relay has ended here, and neither side of the equivalence holds.
        have hsilent := step_silenced h (Nat.not_le.mp hheard) hstep
        obtain ⟨rfl, rfl⟩ := run_ended (by rw [hsilent]; exact nofun) hrest
        exact iff_of_false (fun hcomplete => hcomplete.ended hsilent) fun hall => hheard hall.1

end Relay

namespace TgwsCore

-- Whatever the way to the relay, it is complete for as long as no read from the client waits for
-- more than 10 seconds, and ends there.
theorem relay_complete_iff {platform : Platform} {prefs : ProxyPrefs} {network : Network} {core : TgwsCore}
    {input : Input} {relay last : Relay} {events : List Event}
    (hrelay : core.relay platform prefs network input = some relay)
    (hrun : run Relay.step relay events = some last) :
    Relay.Complete relay events last ↔ Relay.ClientHeard 0 events := by
  obtain ⟨hclient, hremote, hsince, hended⟩ := relay_timeouts hrelay
  rw [← hsince]
  refine Relay.complete_iff_heard ⟨hclient, hremote⟩ ?_ hrun
  rw [hended]
  exact nofun

-- A client of SOCKS5 that is connected to its target directly.
def samplePrefs : ProxyPrefs where
  vpnProvider := "tor"
  turnProxyLocalPort := 9000
  operaProxyHost := "127.0.0.1"
  operaProxyPort := 1888
  customSocksIp := "127.0.0.1"
  customSocksPort := 1080

def sampleNetwork : Network where
  connects _ := true
  proxyAnswer _ := none
  handshakes _ := true
  upgradeAnswer _ := some "HTTP/1.1 101 Switching Protocols"

def sampleSocks5 : Input := ⟨[[5, 1, 0], [5, 1, 0, 1, 149, 154, 167, 51, 1, 187]]⟩

def sampleRelay : Relay := Relay.start { soTimeout := 10000 } { soTimeout := 0 } none

theorem relay_sample :
    sampleCore.relay samplePlatform samplePrefs sampleNetwork sampleSocks5 = some sampleRelay := by
  decide +kernel

-- The client asks once, and the answer takes 9 seconds.
theorem relay_complete_sample :
    Relay.Complete sampleRelay [⟨0, .chunk .client [1] 0⟩, ⟨9000, .chunk .remote [2, 3] 9000⟩]
      { client := { soTimeout := 10000, since := 0, written := [1] }
        remote := { soTimeout := 0, since := 9000, written := [2, 3] }, now := 9000, ended := none } :=
  (relay_complete_iff relay_sample (by decide)).mpr ⟨by decide, by decide, trivial⟩

-- The answer is still coming when the client has been silent for more than 10 seconds.
theorem relay_not_complete :
    ¬∀ (platform : Platform) (prefs : ProxyPrefs) (network : Network) (core : TgwsCore) (input : Input)
      (relay last : Relay) (events : List Event), core.relay platform prefs network input = some relay →
      run Relay.step relay events = some last → Relay.Complete relay events last := by
  intro h
  have hcomplete := h samplePlatform samplePrefs sampleNetwork sampleCore sampleSocks5 sampleRelay
    { client := { soTimeout := 10000, since := 0, written := [1] }
      remote := { soTimeout := 0, since := 9000, written := [2, 3] }, now := 11000, ended := some .silence }
    [⟨0, .chunk .client [1] 0⟩, ⟨9000, .chunk .remote [2, 3] 9000⟩, ⟨11000, .chunk .remote [4] 11000⟩]
    relay_sample (by decide)
  exact hcomplete.ended rfl

end TgwsCore

end ToInet.Tgws
