import ToInet.Rehabilitator.Socks5Connection.Reading
import ToInet.Rehabilitator.Socks5Connection.Theorems

-- What the server behind the ByeDPI socket answers, and where the relay begins to read.
namespace ToInet.Rehabilitator

open ToInet.Lib ToInet.Lib.Socks5

-- The method that a server chooses, what it makes of the credentials and of the request, and what
-- it sends once it is connected. A message that it does not expect it refuses, or it just closes.
structure Upstream where
  method : UInt8
  status : UInt8
  rep : UInt8
  bound : Target
  payload : Bytes
  refusal : Option UInt8

namespace Upstream

variable (server : Upstream)

-- It chooses one of the methods it is offered, or none of them.
def Conforms (creds : Option (Bytes × Bytes)) : Prop :=
  (server.method ∈ innerMethods creds ∨ server.method = 0xFF) ∧ ∀ status, server.refusal = some status → status ≠ 0

def accepts : Prop := (server.method = 0 ∨ server.method = 2 ∧ server.status = 0) ∧ server.rep = 0

def answer : Bytes := connectReply server.rep server.bound ++ if server.rep = 0 then server.payload else []

-- What it sends on a connection on which this has been sent to it.
def replies (creds : Option (Bytes × Bytes)) (target : Target) (sent : Bytes) : Bytes :=
  let behind := sent.drop (greeting (innerMethods creds)).length
  let authReq := creds.elim [] fun c => auth c.1 c.2
  methodReply server.method ++
    if server.method = 0 then if behind = connect target then server.answer else []
    else if server.method = 2 then
      if authReq <+: behind then
        authReply server.status ++ if server.status = 0 ∧ behind = authReq ++ connect target then server.answer else []
      else server.refusal.elim [] authReply
    else []

-- The sizes of the fields of its replies.
def replySizes : List Nat :=
  [2] ++ (if server.method = 2 then [2] else []) ++ ([4] ++ addressSizes server.bound.address ++ [2])

end Upstream

def pipe (input : Input) : List Bytes := input.chunks 8192

-- Both ways are copied exactly if the server accepts, and then its payload is all that the client
-- gets behind the answers of the code.
def RelaysIfAccepted (server : Upstream) (handled : Handled) : Prop :=
  (handled.piped.isSome = true ↔ server.accepts) ∧ ∀ client byedpi, handled.piped = some (client, byedpi) →
    handled.told ++ (pipe byedpi).flatten = [5, 0] ++ replyBytes 0 ++ server.payload

-- Each field of the replies comes in one read: the two bytes of an answer, the four in front of the
-- address, the address (the length and the name of a domain) and the port.
def RepliesWhole (server : Upstream) (byedpi : Input) : Prop := (byedpi.readWhole server.replySizes).isSome = true

variable {input : Input} {server : Upstream} {creds : Option (Bytes × Bytes)} {byedpi : Input} {target : Target}

theorem readReply_eq (input : Input) :
    readReply input =
      if (readInto input 4).count < 4 then none
      else if (readInto input 4).byte 1 ≠ 0 then none
      else
        match readAddress ((readInto input 4).byte 3) (readInto input 4).rest with
        | .address _ rest => some (readInto rest 2).rest
        | _ => none := by
  unfold readReply readAddress
  dsimp only
  split
  · rfl
  · split
    · rfl
    · split
      · rfl
      · split
        · cases (readInto input 4).rest.read 1 <;> rfl
        · split <;> rfl

-- A success shows its second byte, and four bytes at least.
theorem readReply_eq_some {rest : Input} (h : readReply input = some rest) :
    ∃ a c d more, input.bytes = a :: 0 :: c :: d :: more := by
  rw [readReply_eq] at h
  split at h
  · cases h
  split at h
  · cases h
  rename_i hcount hzero
  cases hread : input.read 4 with
  | none => simp [readInto, hread] at hcount
  | some result =>
      obtain ⟨chunk, next⟩ := result
      obtain ⟨_, hle, hsplit⟩ := Input.read_eq_some (by decide) hread
      have hlength : chunk.length = 4 := by
        simp only [readInto, hread] at hcount
        simp at hcount
        omega
      obtain ⟨a, b, c, d, rfl⟩ := List.length_eq_four.mp hlength
      have hb : b = 0 := by simpa [readInto, hread, Filled.byte] using hzero
      subst hb
      exact ⟨a, c, d, next.bytes, hsplit⟩

theorem readReply_refused {rep : UInt8} {bound : Target} {more : Bytes} (hrep : rep ≠ 0)
    (h : input.bytes = connectReply rep bound ++ more) : readReply input = none := by
  rw [Option.eq_none_iff_forall_ne_some]
  intro rest hreply
  obtain ⟨a, c, d, tail, hbytes⟩ := readReply_eq_some hreply
  rw [h] at hbytes
  simp [connectReply] at hbytes
  exact hrep hbytes.2.1

-- A reply that is read from one byte too early shows its version in the place of its code.
theorem readReply_shifted {b : UInt8} {more : Bytes} (h : input.bytes = b :: 5 :: more) : readReply input = none := by
  rw [Option.eq_none_iff_forall_ne_some]
  intro rest hreply
  obtain ⟨a, c, d, tail, hbytes⟩ := readReply_eq_some hreply
  rw [h] at hbytes
  simp at hbytes

theorem readReply_short (h : input.bytes.length < 4) : readReply input = none := by
  rw [Option.eq_none_iff_forall_ne_some]
  intro rest hreply
  obtain ⟨a, c, d, tail, hbytes⟩ := readReply_eq_some hreply
  rw [hbytes] at h
  simp at h
  omega

-- A success that is read whole is passed exactly; otherwise it is not passed, or some of it is left.
theorem readReply_granted {bound : Target} {payload : Bytes} (h : input.bytes = connectReply 0 bound ++ payload) :
    (∃ rest, input.readWhole ([4] ++ addressSizes bound.address ++ [2]) = some rest ∧ rest.bytes = payload ∧
        readReply input = some rest) ∨
      input.readWhole ([4] ++ addressSizes bound.address ++ [2]) = none ∧ ∀ rest, readReply input = some rest →
        payload.length < rest.bytes.length := by
  obtain ⟨address, portBytes, hport⟩ := bound
  have hbytes : input.bytes = [5, 0, 0, address.atyp] ++ (address.bytes ++ (portBytes ++ payload)) := by
    rw [h]
    simp [connectReply, Target.encode]
  simp only [List.cons_append, List.nil_append]
  rw [readReply_eq]
  obtain hheader | ⟨chunk, tail, hsplit, hpart⟩ := readInto_field 4 rfl hbytes
  swap
  · have hcount := hpart.count_lt (hsplit ▸ rfl)
    simp only [Nat.cast_ofNat] at hcount
    refine .inr ⟨hpart.notWhole _, ?_⟩
    rw [if_pos hcount]
    rintro _ ⟨⟩
  obtain ⟨asked, afterAddress, haddress, hcases⟩ := readAddress_sent hheader.rest
  simp only [hheader.count, Filled.byte, hheader.buffer, hheader.whole]
  simp only [List.getD_cons_succ, List.getD_cons_zero, haddress]
  obtain ⟨rfl, hrest, hwhole⟩ | ⟨tail, _, hrest, hnone⟩ := hcases
  · rw [hwhole]
    obtain hlast | ⟨chunk, tail, hsplit, hpart⟩ := readInto_field _ hport hrest
    · exact .inl ⟨_, hlast.whole [], hlast.rest, by simp⟩
    · refine .inr ⟨hpart.notWhole _, fun rest hsome => ?_⟩
      have hpos : 0 < tail.length := List.length_pos_iff.mpr hpart.tail_ne
      have hsame : (readInto afterAddress 2).rest = rest := by simpa using hsome
      rw [← hsame, hpart.rest, List.length_append]
      omega
  · refine .inr ⟨hnone _, fun rest hsome => ?_⟩
    have hsame : (readInto afterAddress 2).rest = rest := by simpa using hsome
    have hleft := length_readInto_rest afterAddress 2
    have hpos : 0 < tail.length := List.length_pos_iff.mpr ‹Zeroed asked address tail›.tail_ne
    rw [hsame, hrest, List.length_append, List.length_append, hport] at hleft
    omega

-- How far the code comes with a server: never when it does not accept, and else exactly to its
-- payload unless a field of its replies has been cut.
def Arrives (server : Upstream) (byedpi : Input) (through : Option Input) : Prop :=
  (¬server.accepts → through = none) ∧ (server.accepts →
    (∃ rest, byedpi.readWhole server.replySizes = some rest ∧ rest.bytes = server.payload ∧ through = some rest) ∨
      byedpi.readWhole server.replySizes = none ∧ ∀ rest, through = some rest →
        server.payload.length < rest.bytes.length)

theorem arrives_none (h : byedpi.readWhole server.replySizes = none) : Arrives server byedpi none :=
  ⟨fun _ => rfl, fun _ => .inr ⟨h, nofun⟩⟩

theorem arrives_answer (hmethod : server.method = 0 ∨ server.method = 2 ∧ server.status = 0)
    (hsizes : byedpi.readWhole server.replySizes = input.readWhole ([4] ++ addressSizes server.bound.address ++ [2]))
    (h : input.bytes = server.answer) : Arrives server byedpi (readReply input) := by
  by_cases hrep : server.rep = 0
  · rw [Upstream.answer, if_pos hrep, hrep] at h
    refine ⟨fun hnot => absurd ⟨hmethod, hrep⟩ hnot, fun _ => ?_⟩
    rw [hsizes]
    exact readReply_granted h
  · rw [Upstream.answer, if_neg hrep] at h
    refine ⟨fun _ => readReply_refused hrep h, fun haccepts => absurd haccepts.2 hrep⟩

theorem answer_eq (server : Upstream) : ∃ more, server.answer = 5 :: more := ⟨_, rfl⟩

theorem connectThrough_auth (target : Target) (username password : Bytes)
    (h : chosenMethod true (readInto byedpi 2) = some 2) :
    connectThrough (some (username, password)) target byedpi =
      let authResp := readInto (readInto byedpi 2).rest 2
      if authResp.byte 0 ≠ 1 ∨ authResp.byte 1 ≠ 0 then
        (greeting (innerMethods (some (username, password))) ++ auth username password, none)
      else
        (greeting (innerMethods (some (username, password))) ++ (auth username password ++ connect target),
          readReply authResp.rest) := by
  have hoffer : greeting (innerMethods (some (username, password))) = [5, 2, 0, 2] := rfl
  by_cases hfails : (readInto (readInto byedpi 2).rest 2).byte 0 ≠ 1 ∨ (readInto (readInto byedpi 2).rest 2).byte 1 ≠ 0
  · simp only [connectThrough, greet, h, if_true, hoffer, if_pos hfails]
    simp [auth]
  · simp only [connectThrough, greet, h, if_true, hoffer, if_neg hfails]
    simp [auth, connect, Target.encode]

theorem replies_append (server : Upstream) (creds : Option (Bytes × Bytes)) (target : Target) (behind : Bytes) :
    server.replies creds target (greeting (innerMethods creds) ++ behind) =
      methodReply server.method ++
        if server.method = 0 then if behind = connect target then server.answer else []
        else if server.method = 2 then
          if (creds.elim [] fun c => auth c.1 c.2) <+: behind then
            authReply server.status ++
              if server.status = 0 ∧ behind = (creds.elim [] fun c => auth c.1 c.2) ++ connect target then server.answer
              else []
          else server.refusal.elim [] authReply
        else [] := by
  rw [Upstream.replies, List.drop_left]

-- What single reads make of an answer of two bytes: the second one is taken for 0 when it is late.
theorem readInto_pair {first second : UInt8} {more : Bytes} (h : input.bytes = [first, second] ++ more) :
    (readInto input 2).byte 0 = first ∧
      ((readInto input 2).byte 1 = second ∧ (readInto input 2).rest.bytes = more ∧
          (∀ sizes, input.readWhole (2 :: sizes) = (readInto input 2).rest.readWhole sizes) ∨
        (readInto input 2).byte 1 = 0 ∧ (readInto input 2).rest.bytes = second :: more ∧
          ∀ sizes, input.readWhole (2 :: sizes) = none) := by
  obtain hwhole | ⟨chunk, tail, hsplit, hpart⟩ := readInto_field 2 rfl h
  · rw [Filled.byte, Filled.byte, hwhole.buffer]
    exact ⟨rfl, .inl ⟨rfl, hwhole.rest, hwhole.whole⟩⟩
  · obtain ⟨rfl, rfl⟩ : chunk = [first] ∧ tail = [second] := by
      obtain ⟨c, chunk, rfl⟩ := List.exists_cons_of_ne_nil hpart.chunk_ne
      obtain ⟨rfl, hrest⟩ := List.cons.inj hsplit
      obtain ⟨t, tail, rfl⟩ := List.exists_cons_of_ne_nil hpart.tail_ne
      cases chunk with
      | nil => exact ⟨rfl, hrest.symm⟩
      | cons d chunk => simp at hrest
    rw [Filled.byte, Filled.byte, hpart.buffer]
    exact ⟨rfl, .inr ⟨rfl, hpart.rest, hpart.notWhole⟩⟩

theorem chosenMethod_eq {withCredentials : Bool} {resp : Filled 2} (h : resp.byte 0 = 5) :
    chosenMethod withCredentials resp =
      if withCredentials = true ∧ resp.byte 1 = 2 then some 2 else if resp.byte 1 ≠ 0 then none else some 0 := by
  rw [chosenMethod, if_neg (not_not.mpr h)]

-- The method 2 is only chosen where credentials are offered.
theorem isSome_of_method_two (hconforms : server.Conforms creds) (h : server.method = 2) : creds.isSome = true := by
  obtain ⟨hmem | hnone, _⟩ := hconforms
  · cases creds with
    | none =>
        rw [h] at hmem
        exact absurd hmem (by decide)
    | some c => rfl
  · rw [h] at hnone
    exact absurd hnone (by decide)

theorem length_refusal (server : Upstream) : (server.refusal.elim [] authReply).length ≤ 2 := by
  cases server.refusal with
  | none => exact Nat.zero_le 2
  | some status => exact Nat.le_refl 2

-- Behind an answer to the greeting that lets the code go on without credentials.
theorem arrives_open (hconforms : server.Conforms creds)
    (hchosen : chosenMethod creds.isSome (readInto byedpi 2) = some 0)
    (hbytes : byedpi.bytes = server.replies creds target (connectThrough creds target byedpi).1) :
    Arrives server byedpi (connectThrough creds target byedpi).2 := by
  rw [connectThrough_zero hchosen, replies_append, methodReply] at hbytes
  rw [connectThrough_zero hchosen]
  obtain ⟨hfive, ⟨hmethod, hrest, hwhole⟩ | ⟨_, hrest, hwhole⟩⟩ := readInto_pair hbytes
  · rw [chosenMethod_eq hfive, hmethod] at hchosen
    have hzero : server.method = 0 := by
      by_contra hne
      rw [if_pos hne] at hchosen
      split at hchosen
      · exact absurd (Option.some.inj hchosen) (by decide)
      · cases hchosen
    rw [if_pos hzero, if_pos rfl] at hrest
    refine arrives_answer (.inl hzero) ?_ hrest
    rw [Upstream.replySizes, if_neg (by rw [hzero]; decide)]
    exact hwhole _
  · have hnone : readReply (readInto byedpi 2).rest = none := by
      by_cases hzero : server.method = 0
      · obtain ⟨more, hanswer⟩ := answer_eq server
        rw [if_pos hzero, if_pos rfl, hanswer] at hrest
        exact readReply_shifted hrest
      · rw [if_neg hzero] at hrest
        refine readReply_short ?_
        rw [hrest, List.length_cons]
        split
        · rename_i htwo
          obtain ⟨c, rfl⟩ := Option.isSome_iff_exists.mp (isSome_of_method_two hconforms htwo)
          have hprefix : ¬auth c.1 c.2 <+: connect target := by
            intro h
            exact auth_not_prefix_connect (show auth c.1 c.2 ++ [] <+: connect target ++ [] by simpa using h)
          have hlength := length_refusal server
          rw [Option.elim_some, if_neg hprefix]
          omega
        · decide
    rw [hnone]
    exact arrives_none (hwhole _)

theorem method_two (hchosen : chosenMethod true (readInto byedpi 2) = some 2) {more : Bytes}
    (h : byedpi.bytes = methodReply server.method ++ more) :
    server.method = 2 ∧ (readInto byedpi 2).rest.bytes = more ∧
      ∀ sizes, byedpi.readWhole (2 :: sizes) = (readInto byedpi 2).rest.readWhole sizes := by
  obtain ⟨hfive, ⟨hmethod, hrest, hwhole⟩ | ⟨hlate, _⟩⟩ := readInto_pair h
  · refine ⟨?_, hrest, hwhole⟩
    by_contra hne
    rw [chosenMethod_eq hfive, hmethod, if_neg fun hboth => hne hboth.2] at hchosen
    split at hchosen
    · cases hchosen
    · exact absurd (Option.some.inj hchosen) (by decide)
  · rw [chosenMethod_eq hfive, hlate] at hchosen
    exact absurd hchosen (by decide)

theorem replySizes_two (h : server.method = 2) :
    server.replySizes = 2 :: 2 :: ([4] ++ addressSizes server.bound.address ++ [2]) := by
  rw [Upstream.replySizes, if_pos h]
  rfl

theorem replies_auth {username password behind : Bytes} (hmethod : server.method = 2) :
    server.replies (some (username, password)) target
        (greeting (innerMethods (some (username, password))) ++ (auth username password ++ behind)) =
      methodReply server.method ++
        (authReply server.status ++ if server.status = 0 ∧ behind = connect target then server.answer else []) := by
  have hnot : ¬server.method = 0 := by
    rw [hmethod]
    decide
  simp [replies_append, if_neg hnot, if_pos hmethod]

-- The answer to the credentials, of which a success is read in one piece.
theorem arrives_status {behind : Bytes} (hmethod : server.method = 2)
    (hwhole : ∀ sizes, byedpi.readWhole (2 :: sizes) = input.readWhole sizes)
    (h : input.bytes = authReply server.status ++
      if server.status = 0 ∧ behind = connect target then server.answer else [])
    (hbehind : ¬((readInto input 2).byte 0 ≠ 1 ∨ (readInto input 2).byte 1 ≠ 0) → behind = connect target) :
    Arrives server byedpi
      (if (readInto input 2).byte 0 ≠ 1 ∨ (readInto input 2).byte 1 ≠ 0 then none
        else readReply (readInto input 2).rest) := by
  have hnot : ¬server.method = 0 := by
    rw [hmethod]
    decide
  obtain ⟨hone, ⟨hstatus, hrest, hagain⟩ | ⟨hlate, hrest, hagain⟩⟩ := readInto_pair h
  · simp only [hone, hstatus, ne_eq, not_true_eq_false, false_or, not_not] at hbehind ⊢
    by_cases hzero : server.status = 0
    · rw [if_neg (not_not.mpr hzero)]
      rw [if_pos ⟨hzero, hbehind hzero⟩] at hrest
      refine arrives_answer (.inr ⟨hmethod, hzero⟩) ?_ hrest
      rw [replySizes_two hmethod, hwhole, hagain]
    · rw [if_pos hzero]
      refine ⟨fun _ => rfl, fun haccepts => ?_⟩
      obtain hopen | ⟨_, hsome⟩ := haccepts.1
      · exact absurd hopen hnot
      · exact absurd hsome hzero
  · simp only [hone, hlate, ne_eq, not_true_eq_false, false_or, if_false, not_false_eq_true, true_implies] at hbehind ⊢
    have hnone : readReply (readInto input 2).rest = none := by
      by_cases hzero : server.status = 0
      · obtain ⟨more, hanswer⟩ := answer_eq server
        rw [if_pos ⟨hzero, hbehind⟩, hanswer] at hrest
        exact readReply_shifted hrest
      · rw [if_neg fun hboth => hzero hboth.1] at hrest
        exact readReply_short (by simp [hrest])
    rw [hnone]
    refine arrives_none ?_
    rw [replySizes_two hmethod, hwhole, hagain]

-- Behind an answer to the greeting that asks for the credentials.
theorem arrives_auth {username password : Bytes} (hchosen : chosenMethod true (readInto byedpi 2) = some 2)
    (hbytes : byedpi.bytes = server.replies (some (username, password)) target
      (connectThrough (some (username, password)) target byedpi).1) :
    Arrives server byedpi (connectThrough (some (username, password)) target byedpi).2 := by
  obtain ⟨behind, hsent⟩ := connectThrough_two target username password hchosen
  rw [hsent] at hbytes
  obtain ⟨hmethod, _, hwhole⟩ := method_two hchosen (hbytes.trans (replies_append ..))
  obtain ⟨_, hrest, _⟩ := method_two hchosen (hbytes.trans (replies_auth hmethod))
  have hthrough := connectThrough_auth target username password hchosen
  dsimp only at hthrough
  rw [hthrough] at hsent
  have harrives := arrives_status hmethod hwhole hrest fun hsucceeds => by
    rw [if_neg hsucceeds] at hsent
    simpa using hsent.symm
  rw [hthrough]
  split at harrives
  · rename_i hfails
    rwa [if_pos hfails]
  · rename_i hsucceeds
    rwa [if_neg hsucceeds]

theorem arrives_of_replies (hconforms : server.Conforms creds)
    (hbytes : byedpi.bytes = server.replies creds target (connectThrough creds target byedpi).1) :
    Arrives server byedpi (connectThrough creds target byedpi).2 := by
  cases hchosen : chosenMethod creds.isSome (readInto byedpi 2) with
  | none =>
      rw [sent_connectThrough_none hchosen]
      obtain ⟨hfive, ⟨hmethod, _⟩ | ⟨hlate, _⟩⟩ := readInto_pair hbytes
      · rw [chosenMethod_eq hfive, hmethod] at hchosen
        refine ⟨fun _ => rfl, fun haccepts => ?_⟩
        obtain ⟨hzero | ⟨htwo, _⟩, _⟩ := haccepts
        · simp [hzero] at hchosen
        · simp [htwo, isSome_of_method_two hconforms htwo] at hchosen
      · rw [chosenMethod_eq hfive, hlate] at hchosen
        simp at hchosen
  | some method =>
      rcases chosenMethod_eq_some hchosen with rfl | ⟨rfl, hcreds⟩
      · exact arrives_open hconforms hchosen hbytes
      · obtain ⟨⟨username, password⟩, rfl⟩ := Option.isSome_iff_exists.mp hcreds
        exact arrives_auth hchosen hbytes

theorem told_of_request {client rest : Input} (h : (readRequest client).2 = some (target, rest)) :
    (readRequest client).1 = [5, 0] := by
  cases hread : readRequest client with
  | mk told request =>
      rw [hread] at h
      subst h
      unfold readRequest readBehind at hread
      dsimp only at hread
      repeat' split at hread
      all_goals cases hread
      rfl

-- The relay begins exactly for a server that accepts and exactly at its payload if the server does
-- not accept, or its replies are not cut within a field.
theorem relays_iff (server : Upstream) (username password : Option String) (client byedpi : Input) {target : Target}
    {rest : Input} (hrequest : (readRequest client).2 = some (target, rest))
    (hconforms : server.Conforms (credentials username password))
    (hbytes : byedpi.bytes =
      server.replies (credentials username password) target (handle true username password client byedpi).sent) :
    RelaysIfAccepted server (handle true username password client byedpi) ↔
      (server.accepts → RepliesWhole server byedpi) := by
  have hread : readRequest client = ([5, 0], some (target, rest)) := Prod.ext (told_of_request hrequest) hrequest
  rw [(handle_of_request username password byedpi hread).1] at hbytes
  obtain ⟨hrefused, haccepted⟩ := arrives_of_replies hconforms hbytes
  rw [handle, hread]
  simp only [if_true]
  cases hthrough : connectThrough (credentials username password) target byedpi with
  | mk sent through =>
      rw [hthrough] at hrefused haccepted
      by_cases haccepts : server.accepts
      · obtain ⟨left, hwhole, hpayload, hsome⟩ | ⟨hcut, hleft⟩ := haccepted haccepts
        · obtain rfl : through = some left := hsome
          refine iff_of_true ⟨iff_of_true rfl haccepts, ?_⟩ fun _ => ?_
          · rintro _ _ ⟨⟩
            rw [pipe, Input.chunks_flatten (by decide), hpayload]
          · rw [RepliesWhole, hwhole]
            rfl
        · refine iff_of_false ?_ fun hwhole => ?_
          · rintro ⟨hpiped, hrelays⟩
            cases through with
            | none => exact Bool.false_ne_true (hpiped.mpr haccepts)
            | some left =>
                have hpayload := List.append_cancel_left (hrelays rest left rfl)
                rw [pipe, Input.chunks_flatten (by decide)] at hpayload
                exact absurd (congrArg List.length hpayload) (hleft left rfl).ne'
          · have hsome := hwhole haccepts
            rw [RepliesWhole, hcut] at hsome
            cases hsome
      · obtain rfl : through = none := hrefused haccepts
        refine iff_of_true ⟨iff_of_false Bool.false_ne_true haccepts, ?_⟩ fun h => absurd h haccepts
        rintro _ _ ⟨⟩

-- A server that opens the connection at once and sends one byte, for the client that asks for the
-- host a.ru.
def grantingServer : Upstream :=
  { method := 0
    status := 0
    rep := 0
    bound := ⟨.ipv4 [0, 0, 0, 0] length_noHost, [0, 0], length_noPort⟩
    payload := [22]
    refusal := none }

def wholeReplies : Input := ⟨[[5, 0], [5, 0, 0, 1], [0, 0, 0, 0], [0, 0], [22]]⟩

-- The address comes in two reads.
def cutReplies : Input := ⟨[[5, 0], [5, 0, 0, 1], [0, 0], [0, 0, 0, 0], [22]]⟩

theorem grantingServer_conforms : grantingServer.Conforms none := ⟨.inl (by decide), nofun⟩

theorem relays_wholeReplies :
    RelaysIfAccepted grantingServer (handle true none none askingClient wholeReplies) ↔
      (grantingServer.accepts → RepliesWhole grantingServer wholeReplies) :=
  relays_iff grantingServer none none askingClient wholeReplies
    (show (readRequest askingClient).2 = some (askedTarget, ⟨[[]]⟩) from rfl) grantingServer_conforms (by decide)

-- The client gets the end of the reply in front of the payload.
theorem not_relays_cutReplies :
    ¬∀ (server : Upstream) (username password : Option String) (client byedpi : Input) (target : Target) (rest : Input),
      (readRequest client).2 = some (target, rest) → server.Conforms (credentials username password) →
      byedpi.bytes =
        server.replies (credentials username password) target (handle true username password client byedpi).sent →
      RelaysIfAccepted server (handle true username password client byedpi) := by
  intro h
  obtain ⟨_, hrelays⟩ := h grantingServer none none askingClient cutReplies askedTarget
    ⟨[[]]⟩ rfl grantingServer_conforms
    (by decide)
  have hpayload := hrelays _ _ rfl
  exact absurd hpayload (by decide)

end ToInet.Rehabilitator
