import ToInet.Rehabilitator.Socks5Connection

-- The chain that the rehabilitator is for: ByeDPI is asked for the upstream proxy, and the
-- upstream proxy for the target of the client.
namespace ToInet.Rehabilitator

open ToInet.Lib ToInet.Lib.Socks5

-- The methods that are offered to the upstream proxy.
def innerMethods (creds : Option (Bytes × Bytes)) : Bytes := if creds.isSome then [0, 2] else [0]

-- What is written to ByeDPI along the chain: its own handshake with any methods, then that of the
-- upstream proxy, which may ask for the credentials.
def twoHop (methods : Bytes) (upstreamAddr : Target) (creds : Option (Bytes × Bytes)) (asked : Bool)
    (target : Target) : Bytes :=
  greeting methods ++ connect upstreamAddr ++
    (greeting (innerMethods creds) ++ (if asked then creds.elim [] fun c => auth c.1 c.2 else []) ++ connect target)

-- What is written follows the chain, and is all of it where the connection has been made.
def Follows (upstreamAddr : Target) (creds : Option (Bytes × Bytes)) (target : Target) (sent : Bytes)
    (connected : Bool) : Prop :=
  ∃ methods asked, methods.length < 256 ∧ sent <+: twoHop methods upstreamAddr creds asked target ∧
    (connected → sent = twoHop methods upstreamAddr creds asked target)

-- What is written to ByeDPI until both ways are copied follows the chain to the client's target.
def Chained (server : Socks5Server) (connects : Bool) (client byedpi : Input) : Prop :=
  let handled := server.serve connects client byedpi
  match (readRequest client).2 with
  | none => handled.sent = []
  | some (target, _) =>
      Follows server.upstreamAddr (credentials server.username server.password) target handled.sent
        handled.piped.isSome

-- Nothing but a greeting is written, or the target is the upstream proxy itself, and is refused.
def Unrequested (server : Socks5Server) (connects : Bool) (client byedpi : Input) : Prop :=
  ∀ target rest, (readRequest client).2 = some (target, rest) → connects = true →
    ∀ method, chosenMethod (credentials server.username server.password).isSome (readInto byedpi 2) = some method →
      method = 0 ∧ target = server.upstreamAddr ∧ readReply (readInto byedpi 2).rest = none

variable {creds : Option (Bytes × Bytes)} {byedpi : Input} {target : Target}

-- The greeting that is written is the one for the upstream proxy.
theorem greet_none (h : chosenMethod creds.isSome (readInto byedpi 2) = none) :
    greet creds byedpi = (greeting (innerMethods creds), none) := by
  cases creds with
  | none =>
      rw [Option.isSome_none] at h
      simp only [greet, h, Option.map_none]
      rfl
  | some c =>
      rw [Option.isSome_some] at h
      simp only [greet, h]
      rfl

theorem chosenMethod_eq_some {withCredentials : Bool} {resp : Filled 2} {method : UInt8}
    (h : chosenMethod withCredentials resp = some method) : method = 0 ∨ method = 2 ∧ withCredentials = true := by
  unfold chosenMethod at h
  split at h
  · cases h
  · split at h
    · rename_i htwo
      exact .inr ⟨(Option.some.inj h).symm, htwo.1⟩
    · split at h
      · cases h
      · exact .inl (Option.some.inj h).symm

theorem greet_zero (h : chosenMethod creds.isSome (readInto byedpi 2) = some 0) :
    greet creds byedpi = (greeting (innerMethods creds), some (readInto byedpi 2).rest) := by
  cases creds with
  | none =>
      rw [Option.isSome_none] at h
      simp only [greet, h, Option.map_some]
      rfl
  | some c =>
      rw [Option.isSome_some] at h
      simp only [greet, h]
      rfl

-- With the second method the credentials follow.
theorem greet_two {username password : Bytes} (h : chosenMethod true (readInto byedpi 2) = some 2) :
    (greet (some (username, password)) byedpi).1 =
      greeting (innerMethods (some (username, password))) ++ auth username password := by
  have hoffer : greeting (innerMethods (some (username, password))) = [5, 2, 0, 2] := rfl
  simp only [greet, h, if_true, hoffer]
  simp [auth]

theorem sent_connectThrough_none (h : chosenMethod creds.isSome (readInto byedpi 2) = none) :
    connectThrough creds target byedpi = (greeting (innerMethods creds), none) := by
  rw [connectThrough, greet_none h]

theorem connectThrough_zero (h : chosenMethod creds.isSome (readInto byedpi 2) = some 0) :
    connectThrough creds target byedpi =
      (greeting (innerMethods creds) ++ connect target, readReply (readInto byedpi 2).rest) := by
  rw [connectThrough, greet_zero h]
  simp [connect, Target.encode]

theorem connectThrough_two (target : Target) (username password : Bytes)
    (h : chosenMethod true (readInto byedpi 2) = some 2) :
    ∃ more, (connectThrough (some (username, password)) target byedpi).1 =
      greeting (innerMethods (some (username, password))) ++ (auth username password ++ more) := by
  have hsent : (greet (some (username, password)) byedpi).1 = _ := greet_two h
  unfold connectThrough
  cases hgreet : greet (some (username, password)) byedpi with
  | mk sent accepted =>
      rw [hgreet] at hsent
      cases accepted with
      | none => exact ⟨[], by simpa using hsent⟩
      | some rest =>
          refine ⟨[5, 1, 0, target.address.atyp] ++ target.address.bytes ++ target.portBytes, ?_⟩
          simp only at hsent ⊢
          rw [hsent]
          simp

theorem length_innerMethods : (innerMethods creds).length < 256 := by
  cases creds with
  | none => decide
  | some c => exact show 2 < 256 by decide

-- The first message of the chain is a greeting, and the second asks for the upstream proxy.
theorem prefix_twoHop {methods more : Bytes} {upstreamAddr : Target} {asked : Bool} (hmethods : methods.length < 256)
    (h : greeting (innerMethods creds) ++ more <+: twoHop methods upstreamAddr creds asked target) :
    methods = innerMethods creds ∧ more <+: connect upstreamAddr ++ (greeting (innerMethods creds) ++
      (if asked then creds.elim [] fun c => auth c.1 c.2 else []) ++ connect target) := by
  obtain ⟨rest, hrest⟩ := h
  rw [twoHop, List.append_assoc, List.append_assoc] at hrest
  obtain ⟨hsame, htail⟩ := greeting_append_inj length_innerMethods hmethods hrest
  exact ⟨hsame.symm, rest, htail⟩

theorem length_twoHop (methods : Bytes) (upstreamAddr : Target) (asked : Bool) :
    (greeting methods ++ connect upstreamAddr).length < (twoHop methods upstreamAddr creds asked target).length := by
  simp only [twoHop, greeting, List.length_append, List.length_cons]
  omega

section

variable {upstreamAddr : Target}

theorem follows_nil : Follows upstreamAddr creds target [] false :=
  ⟨[0], false, by decide, List.nil_prefix, nofun⟩

theorem follows_greeting : Follows upstreamAddr creds target (greeting (innerMethods creds)) false := by
  refine ⟨innerMethods creds, false, length_innerMethods, ?_, nofun⟩
  rw [twoHop, List.append_assoc]
  exact List.prefix_append _ _

-- One request is not the whole chain.
theorem follows_request_iff {connected : Bool} :
    Follows upstreamAddr creds target (greeting (innerMethods creds) ++ connect target) connected ↔
      target = upstreamAddr ∧ connected = false := by
  constructor
  · rintro ⟨methods, asked, hmethods, hprefix, hall⟩
    obtain ⟨rfl, hrest⟩ := prefix_twoHop hmethods hprefix
    obtain rfl := eq_of_connect_prefix hrest
    refine ⟨rfl, ?_⟩
    by_contra hconnected
    have hlength : (greeting (innerMethods creds) ++ connect target).length <
        (twoHop (innerMethods creds) target creds asked target).length := length_twoHop _ _ _
    rw [← hall (by simpa using hconnected)] at hlength
    exact Nat.lt_irrefl _ hlength
  · rintro ⟨rfl, rfl⟩
    exact ⟨innerMethods creds, false, length_innerMethods, List.prefix_append _ _, nofun⟩

theorem not_follows_auth {username password more : Bytes} {connected : Bool} :
    ¬Follows upstreamAddr creds target (greeting (innerMethods creds) ++ (auth username password ++ more))
      connected := by
  rintro ⟨methods, asked, hmethods, hprefix, _⟩
  exact auth_not_prefix_connect (prefix_twoHop hmethods hprefix).2

end

section

variable (username password : Option String) (byedpi : Input) {connects : Bool} {client : Input} {told : Bytes}

theorem handle_of_closed (h : readRequest client = (told, none)) :
    (handle connects username password client byedpi).sent = [] := by
  rw [handle, h]

theorem handle_of_unreachable {rest : Input} (h : readRequest client = (told, some (target, rest))) :
    (handle false username password client byedpi).sent = [] ∧
      (handle false username password client byedpi).piped = none := by
  rw [handle, h]
  exact ⟨rfl, rfl⟩

theorem handle_of_request {rest : Input} (h : readRequest client = (told, some (target, rest))) :
    (handle true username password client byedpi).sent =
        (connectThrough (credentials username password) target byedpi).1 ∧
      (handle true username password client byedpi).piped.isSome =
        (connectThrough (credentials username password) target byedpi).2.isSome := by
  rw [handle, h]
  simp only [if_true]
  split <;> rename_i hthrough <;> rw [hthrough] <;> exact ⟨rfl, rfl⟩

end

-- What is written follows the chain exactly if no request and no credentials are written, or the
-- request is one that the chain begins with and goes no further.
theorem chained_iff (server : Socks5Server) (connects : Bool) (client byedpi : Input) :
    Chained server connects client byedpi ↔ Unrequested server connects client byedpi := by
  unfold Chained Unrequested Socks5Server.serve
  cases hrequest : readRequest client with
  | mk told request =>
      cases request with
      | none => exact iff_of_true (handle_of_closed server.username server.password byedpi hrequest) nofun
      | some request =>
          obtain ⟨target, rest⟩ := request
          simp only [Option.some.injEq, Prod.mk.injEq, and_imp]
          cases connects with
          | false =>
              obtain ⟨hsent, hpiped⟩ := handle_of_unreachable server.username server.password byedpi hrequest
              rw [hsent, hpiped]
              exact iff_of_true follows_nil nofun
          | true =>
              obtain ⟨hsent, hpiped⟩ := handle_of_request server.username server.password byedpi hrequest
              rw [hsent, hpiped]
              generalize credentials server.username server.password = creds
              cases hmethod : chosenMethod creds.isSome (readInto byedpi 2) with
              | none =>
                  rw [sent_connectThrough_none hmethod]
                  exact iff_of_true follows_greeting nofun
              | some method =>
                  rcases chosenMethod_eq_some hmethod with rfl | ⟨rfl, hcreds⟩
                  · rw [connectThrough_zero hmethod, follows_request_iff]
                    simp
                  · obtain ⟨⟨username, password⟩, rfl⟩ := Option.isSome_iff_exists.mp hcreds
                    obtain ⟨more, hauth⟩ : ∃ more, (connectThrough _ target byedpi).1 = _ :=
                      connectThrough_two _ _ _ hmethod
                    rw [hauth]
                    refine iff_of_false not_follows_auth fun hzero => ?_
                    exact absurd (hzero target rest rfl rfl rfl 2 rfl).1 (by decide)

-- An upstream proxy on port 1080 of another host, and a client that asks for the host a.ru.
def upstreamServer : Socks5Server :=
  { byedpiAddr := ⟨.ipv4 [127, 0, 0, 1] rfl, [4, 56], rfl⟩
    upstreamAddr := ⟨.ipv4 [10, 0, 0, 9] rfl, [4, 56], rfl⟩
    username := none
    password := none }

def askedTarget : Target := ⟨.domain [97, 46, 114, 117] (by decide), [1, 187], length_https⟩

def askingClient : Input := ⟨[[5, 1], [0], [5, 1, 0, 3], [4, 97, 46, 114, 117], [1, 187]]⟩

def grantingByedpi : Input := ⟨[[5, 0], [5, 0, 0, 1, 0, 0, 0, 0, 0, 0]]⟩

-- The client is told that it is connected, but ByeDPI has been asked for its target alone.
theorem not_chained_askedTarget : ¬∀ server connects client byedpi, Chained server connects client byedpi := by
  intro h
  have hfollows : Follows upstreamServer.upstreamAddr none askedTarget
      (greeting (innerMethods none) ++ connect askedTarget) true := h upstreamServer true askingClient grantingByedpi
  exact absurd (follows_request_iff.mp hfollows).1 (by decide)

end ToInet.Rehabilitator
