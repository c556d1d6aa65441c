import ToInet.Byedpi.Proxy.Theorems

-- The ways in which the event loop fails.
namespace ToInet.Byedpi.Proxy

open Function ToInet.Lib ToInet.Byedpi.Conev ToInet.Byedpi.Conev.Poolhd ToInet.Byedpi.Desync ToInet.Byedpi.Extend
  ToInet.Byedpi.Mpool ToInet.Byedpi.OptionLoop ToInet.Byedpi.Packets

-- Some run from a start of the event loop ends with the error.
def EndsWith (abort : Abort) : Prop :=
  ∃ params items srvfd registered server turns, 0 < params.bfsize ∧
    start params items srvfd registered = .ok (some server) ∧ Permitted params server turns ∧
      run params server turns = .error abort

theorem known_of_endsWith {abort : Abort} (h : EndsWith abort) : Known abort := by
  obtain ⟨params, items, srvfd, registered, server, turns, hbfsize, hstart, hturns, hrun⟩ := h
  have hinvariant := run_invariant (by rw [bfsize]; omega) (start_invariant items srvfd registered hstart) hturns
  exact hinvariant.of_eq_error hrun

variable {params : Params} {server : Server} {turns : Turns} {abort : Abort}

theorem endsWith_of_run (params : Params) (turns : Turns) (hbfsize : 0 < params.bfsize)
    (hturns : Permitted params (started params.maxOpen.toNat) turns)
    (hrun : run params (started params.maxOpen.toNat) turns = .error abort) : EndsWith abort :=
  ⟨params, fun _ => .new .ignore 0, 3, true, started params.maxOpen.toNat, turns, hbfsize, rfl, hturns, hrun⟩

section short

-- Someone sends something, and desync sends it on.
def receives (val : Nat) (bytes : Bytes) (sends : List Sent) : Turns :=
  [([[(val, 1)]], answering [] (some bytes) sends [])]

-- "GET / HTTP\nHost: \n"
def emptyHost : Bytes := [71, 69, 84, 32, 47, 32, 72, 84, 84, 80, 10, 72, 111, 115, 116, 58, 32, 10]

-- "GET / HTTP\nHost: a\n"
def plainRequest : Bytes := [71, 69, 84, 32, 47, 32, 72, 84, 84, 80, 10, 72, 111, 115, 116, 58, 32, 97, 10]

-- "HTTP/1.1 302" without an end of the line.
def endlessLine : Bytes := [72, 84, 84, 80, 47, 49, 46, 49, 32, 51, 48, 50] ++ List.replicate 17 32

-- A hello that is shorter than its session id.
def shortHello (type : UInt8) (rest : Bytes) : Bytes := [22, 3, 0, 0, 0, type] ++ List.replicate 37 0 ++ 255 :: rest

-- A group that is tried after the first one, with a buffer for a response.
def tests (bfsize : Int) (detect : Nat) : Params :=
  { defaultParams [] with bfsize := bfsize, dps := [.zero], dp := { DesyncParams.zero with detect := detect } }

-- Options and what happens with them.
def shortRun : Abort → Option (Params × Turns)
  -- The server speaks first and the client does not read all of it.
  | .again =>
      some (defaultParams [], connected ++ [([[(2, 1)]], answering [] none [] [⟨.data [1, 2], .sent 1, true⟩]),
        ([[(1, 4)]], answering [] none [] [])])
  -- The client sends more before the server can be sent the first part.
  | .checkOut =>
      some (defaultParams [], connected ++ receives 1 [1, 2] [.again] ++ receives 1 [3, 4] [.sent 4] ++
        [([[(2, 4)]], answering [] none [] [])])
  -- The client asks for UDP when there is room for one more socket.
  | .noClient =>
      some ({ defaultParams [] with maxOpen := 1 }, greeted ++ receives 1 [5, 3, 0, 1, 0, 0, 0, 0, 0, 0] [])
  | .modHttp =>
      some ({ defaultParams [] with dp := { DesyncParams.zero with modHttp := 2 } },
        connected ++ receives 1 emptyHost [])
  -- The request fills the buffer, in which no zero byte is left.
  | .logHost => some ({ defaultParams [] with bfsize := 18 }, connected ++ receives 1 emptyHost [])
  | .sendOob =>
      some ({ defaultParams [] with bfsize := 10, dp := { DesyncParams.zero with parts := [⟨.oob, .fromEnd, 0⟩] } },
        connected ++ receives 1 [1, 2, 3, 4, 5, 6, 7, 8, 9, 10] [])
  | .redirectHost =>
      some (tests 29 1, connected ++ receives 1 plainRequest [.sent 19] ++ receives 2 endlessLine [])
  | .tlsSid =>
      some (tests 16384 2, connected ++ receives 1 (shortHello 1 (List.replicate 31 0)) [.sent 75] ++
        receives 2 (shortHello 2 (List.replicate 258 0 ++ [0, 6, 0, 43, 0, 0, 0, 0])) [])
  -- There is no type 9 of an address.
  | .s5Port => some (defaultParams [], greeted ++ receives 1 [5, 1, 0, 9, 0, 0, 0, 0] [])
  -- A datagram of the server comes to a buffer that is shorter than the header in front of it.
  | .udpRoom =>
      some ({ defaultParams [] with bfsize := 16 }, greeted ++ receives 1 [5, 3, 0, 1, 0, 0, 0, 0, 0, 0] [] ++
        [([[(2, 1)]],
          { answering [] none [] [] with
            datagrams := [⟨.data [1], [], .inet (toVector 2 []) (toVector 4 []) (toVector 8 []), true, true, true,
              true⟩] })])
  | .protectPath =>
      some ({ defaultParams [] with protectPath := some (List.replicate 108 'a') },
        greeted ++ receives 1 [5, 1, 0, 1, 127, 0, 0, 1, 0, 80] [])
  | _ => none

-- It ends as it should.
def Fails (abort : Abort) (params : Params) (turns : Turns) : Prop :=
  0 < params.bfsize ∧ Permitted params (started params.maxOpen.toNat) turns ∧
    Sat (· = abort) (fun _ => False) (run params (started params.maxOpen.toNat) turns)

instance (abort : Abort) (params : Params) (turns : Turns) : Decidable (Fails abort params turns) :=
  inferInstanceAs (Decidable (_ ∧ _ ∧ _))

-- The known errors but for those that take a long run.
def shortFailures : List Abort :=
  [.again, .checkOut, .noClient, .modHttp, .sendOob, .logHost, .redirectHost, .tlsSid, .s5Port, .udpRoom, .protectPath]

theorem fails_shortRun : ∀ abort ∈ shortFailures, ∃ given ∈ shortRun abort, Fails abort given.1 given.2 := by
  decide +kernel

theorem endsWith_of_short (h : abort ∈ shortFailures) : EndsWith abort := by
  obtain ⟨given, -, hbfsize, hturns, hrun⟩ := fails_shortRun abort h
  exact endsWith_of_run given.1 given.2 hbfsize hturns (Sat.eq_error hrun)

end short

-- A run may be taken apart.
theorem run_append (server : Server) (earlier later : Turns) :
    run params server (earlier ++ later) = run params server earlier >>= fun reached => run params reached later := by
  induction earlier generalizing server with
  | nil => rfl
  | cons t earlier ih =>
      rw [List.cons_append, run, run]
      by_cases hexits : server.exits
      · rw [if_pos hexits, if_pos hexits]
        cases later with
        | nil => rfl
        | cons t later => exact (if_pos hexits).symm
      · rw [if_neg hexits, if_neg hexits]
        cases turn params server t.1 t.2 with
        | error => rfl
        | ok next => exact ih next

theorem permitted_append {earlier later : Turns} (hearlier : Permitted params server earlier)
    (hlater : ∀ reached, run params server earlier = .ok reached → Permitted params reached later) :
    Permitted params server (earlier ++ later) := by
  induction earlier generalizing server with
  | nil => exact hlater server rfl
  | cons t earlier ih =>
      refine fun hexits => ⟨(hearlier hexits).1, fun next hnext => ih ((hearlier hexits).2 next hnext) ?_⟩
      intro reached hreached
      apply hlater
      rw [run, if_neg (by rw [hexits]; decide), hnext]
      exact hreached

-- A turn is repeated, and I holds with the number of times.
theorem exists_run_replicate {I : Nat → Server → Prop} {t : List (List (Nat × Nat)) × Calls} (n : Nat) {k : Nat}
    (hstep : ∀ j server, k ≤ j → j < k + n → I j server → server.exits = false ∧ Kernel server t.1 t.2 ∧
      ∃ next, turn params server t.1 t.2 = .ok next ∧ I (j + 1) next) (hstart : I k server) (turns : Turns) :
    ∃ last, I (k + n) last ∧ run params server (List.replicate n t ++ turns) = run params last turns ∧
      (Permitted params last turns → Permitted params server (List.replicate n t ++ turns)) := by
  induction n generalizing k server with
  | zero => exact ⟨server, hstart, rfl, id⟩
  | succ n ih =>
      obtain ⟨hexits, hkernel, next, hnext, hinvariant⟩ := hstep k server le_rfl (by omega) hstart
      have hrest (j : Nat) (server : Server) (hj : k + 1 ≤ j) (hn : j < k + 1 + n) :=
        hstep j server (by omega) (by omega)
      obtain ⟨last, hlast, hrun, hpermitted⟩ := ih hrest hinvariant
      refine ⟨last, ?_, ?_, fun hturns => permitted_of_next hkernel hnext (hpermitted hturns)⟩
      · rwa [Nat.add_right_comm] at hlast
      · rw [List.replicate_succ, List.cons_append, run, if_neg (by rw [hexits]; decide), hnext]
        exact hrun

-- An event is handed out right away.
theorem nextEvent_single {pool : Poolhd} {val etype : Nat}
    (hfresh : (pool.items val).modIter ≠ (pool.waited [(val, etype)]).iters) :
    pool.nextEvent 0 [[(val, etype)]] = (pool.waited [(val, etype)], some (val, etype, 0)) := by
  have hready : (pool.waited [(val, etype)]).nextReady 1 = some (val, etype, 0) := if_neg hfresh
  rw [nextEvent, nextReady]
  simp only [List.cons_ne_nil, if_false, List.length_singleton]
  rw [nextEvent, hready]

section wrap

-- The socket that listens is ready, but nobody is there.
def idle : List (List (Nat × Nat)) × Calls := ([[(0, 1)]], answering [] none [] [])

-- Nothing but this has happened yet, k times.
def idled (k : Nat) : Server :=
  { started 512 with
    st := { (started 512).st with pool := { (started 512).st.pool with pevents := [(0, 1)], iters := k } } }

theorem turn_idled {k : Nat} (hk : k < UINT_MAX) : turn params (idled k) idle.1 idle.2 = .ok (idled (k + 1)) := by
  have hwaited : (idled k).st.pool.waited [(0, 1)] = (idled (k + 1)).st.pool := by
    rw [waited, if_neg (show (idled k).st.pool.iters ≠ UINT_MAX from hk.ne)]
    rfl
  have hnext := @nextEvent_single (idled k).st.pool 0 1
    (by rw [hwaited]; exact (Nat.succ_ne_zero k).symm)
  rw [hwaited] at hnext
  rw [turn, show (idled k).left = 0 from rfl, idle, hnext]
  rfl

theorem kernel_idled (k : Nat) : Kernel (idled k) idle.1 idle.2 := by
  refine ⟨by decide, fun events hevents x hx => ?_⟩
  obtain rfl := List.mem_singleton.mp hevents
  obtain rfl := List.mem_singleton.mp hx
  exact ⟨0, Nat.zero_lt_one, rfl⟩

theorem run_idled {k n : Nat} (hn : k + n ≤ UINT_MAX) (turns : Turns) :
    run params (idled k) (List.replicate n idle ++ turns) = run params (idled (k + n)) turns ∧
      (Permitted params (idled (k + n)) turns → Permitted params (idled k) (List.replicate n idle ++ turns)) := by
  obtain ⟨last, rfl, hrun⟩ := @exists_run_replicate params (idled k) (fun j server => server = idled j) idle n k
    (fun j server _ hj hserver => by
      subst hserver
      exact ⟨rfl, kernel_idled j, _, turn_idled (by omega), rfl⟩) rfl turns
  exact hrun

theorem endsWith_of_idled (n : Nat) (turns : Turns) (hn : 1 + n ≤ UINT_MAX)
    (hturns : Permitted (defaultParams []) (idled (1 + n)) turns)
    (hrun : run (defaultParams []) (idled (1 + n)) turns = .error abort) : EndsWith abort := by
  have hfirst : turn (defaultParams []) (started 512) idle.1 idle.2 = .ok (idled 1) := rfl
  have hkernel : Kernel (started 512) idle.1 idle.2 := by decide
  obtain ⟨hrest, hpermitted⟩ := @run_idled (defaultParams []) 1 n hn turns
  refine endsWith_of_run (defaultParams []) (idle :: (List.replicate n idle ++ turns)) (by decide)
    (permitted_of_next hkernel hfirst (hpermitted hturns)) ?_
  calc run (defaultParams []) (started 512) (idle :: (List.replicate n idle ++ turns))
      = run (defaultParams []) (idled 1) (List.replicate n idle ++ turns) := rfl
    _ = .error abort := hrest.trans hrun

-- A client that comes with the last iteration is closed with the first one.
def wrapping : Turns :=
  [([[(0, 1)]],
      answering [⟨8, .inet (toVector 2 [4, 1]) (toVector 4 [127, 0, 0, 1]) (toVector 8 []), true, true⟩] none [] []),
   ([[(1, 16)]], answering [] none [] [])]

theorem endsWith_delIter : EndsWith .delIter :=
  endsWith_of_idled (UINT_MAX - 2) wrapping (by decide) (by decide +kernel) (Sat.eq_error (by decide +kernel))

end wrap

section offset

theorem protocol_replicate (n : Nat) : protocol (List.replicate n 0) = .other := by
  have hzero (i : Nat) : (List.replicate n (0 : UInt8)).getD i 0 = 0 := by
    rw [List.getD_eq_getElem?_getD, List.getElem?_replicate]
    split <;> rfl
  have htls : parseTls (List.replicate n 0) = none := by
    rw [parseTls, if_pos]
    left
    rw [isTlsChello, antohs, hzero, hzero]
    simp
  have hhttp : parseHttp (List.replicate n 0) = none := by
    rw [parseHttp, if_pos]
    rw [isHttp, hzero]
    simp
  rw [protocol, htls, hhttp]
  rfl

-- Without options a request goes out as it is.
theorem desync_replicate (n bfsize offset : Nat) :
    ∃ sending, desync .zero bfsize (List.replicate n 0) offset true [.sent 1] = .ok sending ∧ sending.ret = some n := by
  refine ⟨sendRest (List.replicate n 0) offset [.sent 1], ?_, ?_⟩
  · rw [desync, modifyPacket, protocol_replicate]
    rfl
  · rw [sendRest, List.length_replicate]
    split <;> rfl

-- A buffer of 2 ^ 17 bytes.
def largeBuffer : Params := { defaultParams [] with bfsize := 131072 }

-- The client sends one more byte, and the server is silent.
def oneMore : List (List (Nat × Nat)) × Calls := ([[(1, 1)]], answering [] (some [0]) [.sent 1] [])

-- The client has sent k bytes one by one.
structure Fed (k : Nat) (server : Server) : Prop where
  left : server.left = 0
  exits : server.exits = false
  live : server.st.pool.Live 1
  iters : server.st.pool.iters = k + 4
  modIter : (server.st.pool.items 1).modIter ≤ 4
  type : (server.st.pool.items 1).type = .desync
  pair : (server.st.pool.items 1).pair = some 2
  flag : (server.st.pool.items 1).flag ≠ FLAG_CONN
  attempt : (server.st.pool.items 1).attempt = 0
  data : (server.st.pool.items 1).buff.data.getD [] = List.replicate k 0
  offset : 2 * (server.st.pool.items 1).buff.offset = k * (k + 1)

theorem desyncFrom_replicate {pool : Poolhd} {n : Nat} (hn : 0 < n) (hroom : n ≤ 131072)
    (hpair : (pool.items 1).pair = some 2) (hattempt : (pool.items 1).attempt = 0)
    (hdata : (pool.items 1).buff.data.getD [] = List.replicate n 0) :
    desyncFrom largeBuffer pool 1 oneMore.2 =
      if INT_MAX < (pool.items 1).buff.offset + n then .error .offsetRange
      else .ok (sentUpTo pool 1 2 n n oneMore.2) := by
  obtain ⟨sending, hsending, hret⟩ := desync_replicate n 131072 (pool.items 1).buff.offset
  have hpartner : partner pool 1 = .ok 2 := by rw [partner, hpair]
  have hlog (behind : Bytes) : logHost (List.replicate n 0) behind = .ok () := by
    rw [logHost, protocol_replicate]
  rw [desyncFrom]
  simp only [hdata, List.length_replicate, hattempt]
  rw [if_neg (by rw [show bfsize largeBuffer = 131072 from rfl]; omega), hpartner]
  simp only [bind, Except.bind, show (groups largeBuffer)[0]? = some .zero from rfl,
    show oneMore.2.timeoutSet = true from rfl, Bool.true_eq_false, if_false, hlog]
  rw [show desync .zero (bfsize largeBuffer) (List.replicate n 0) (pool.items 1).buff.offset oneMore.2.attached
    oneMore.2.sends = .ok sending from hsending]
  simp only [hret]

-- The end of the client with one more byte.
def takeOne (e : Eval) : Eval :=
  { e with
    buff := { e.buff with data := some (e.buff.data.getD [] ++ [0]) }
    recvCount := e.recvCount + 1 }

theorem onDesync_oneMore {pool : Poolhd} {k : Nat} (hk : k < 131072) (hpair : (pool.items 1).pair = some 2)
    (hflag : (pool.items 1).flag ≠ FLAG_CONN) (hattempt : (pool.items 1).attempt = 0)
    (hdata : (pool.items 1).buff.data.getD [] = List.replicate k 0) :
    onDesync largeBuffer pool 1 false oneMore.2 =
      if INT_MAX < (pool.items 1).buff.offset + (k + 1) then .error .offsetRange
      else .ok (sentUpTo ((pool.modify 1 takeOne).modify 1 fun e => { e with attempt := 0 }) 1 2 (k + 1) (k + 1)
        oneMore.2) := by
  have hrecv : received oneMore.2.recv (bfsize largeBuffer - k) = some [0] := by
    obtain ⟨room, hroom⟩ := Nat.exists_eq_succ_of_ne_zero (show bfsize largeBuffer - k ≠ 0 by
      rw [show bfsize largeBuffer = 131072 from rfl]; omega)
    rw [received, hroom, show oneMore.2.recv.getD [] = [0] from rfl, List.take_succ_cons, List.take_nil]
  have hitem : (pool.modify 1 takeOne).items 1 = takeOne (pool.items 1) := items_set_self ..
  have hpartner : partner (pool.modify 1 takeOne) 1 = .ok 2 := by
    rw [partner, hitem, show (takeOne (pool.items 1)).pair = some 2 from hpair]
  have hfed := @desyncFrom_replicate ((pool.modify 1 takeOne).modify 1 fun e => { e with attempt := 0 }) (k + 1)
    (Nat.succ_pos k) hk (by rw [Poolhd.modify, items_set_self, hitem]; exact hpair)
    (by rw [Poolhd.modify, items_set_self])
    (by
      rw [Poolhd.modify, items_set_self, hitem, List.replicate_succ']
      exact congrArg (· ++ [0]) hdata)
  have hoffset : (((pool.modify 1 takeOne).modify 1 fun e => { e with attempt := 0 }).items 1).buff.offset =
      (pool.items 1).buff.offset := by
    rw [Poolhd.modify, items_set_self, hitem]
    rfl
  rw [hoffset] at hfed
  rw [onDesync]
  simp only [Bool.false_eq_true, if_false, hdata, List.length_replicate]
  rw [if_neg (by rw [show bfsize largeBuffer = 131072 from rfl]; omega), hrecv]
  simp only
  rw [show (pool.modify 1 fun e =>
      { e with
        buff := { e.buff with data := some (e.buff.data.getD [] ++ [0]) }
        recvCount := e.recvCount + [(0 : UInt8)].length }) = pool.modify 1 takeOne from rfl, hpartner]
  have hm (port : Int) (data : Bytes) : firstGroup port data (groups largeBuffer) 0 = 0 := rfl
  simp only [bind, Except.bind, hitem, show (takeOne (pool.items 1)).attempt = 0 from hattempt, if_true, hm]
  rw [if_neg (by decide), onDesyncAgain, if_neg, hfed]
  rw [Poolhd.modify, items_set_self, hitem]
  exact hflag

-- The pool after the k-th byte has been sent.
def sentOne (pool : Poolhd) (k : Nat) : Poolhd :=
  (sentUpTo ((pool.modify 1 takeOne).modify 1 fun e => { e with attempt := 0 }) 1 2 (k + 1) (k + 1) oneMore.2).1

theorem items_sentOne (pool : Poolhd) (k : Nat) : (sentOne pool k).items 1 =
    { pool.items 1 with
      buff := ⟨some ((pool.items 1).buff.data.getD [] ++ [0]), (pool.items 1).buff.offset + (k + 1)⟩
      recvCount := (pool.items 1).recvCount + 1
      attempt := 0 } := by
  rw [sentOne, sentUpTo, if_pos le_rfl]
  refine (items_set_of_ne _ _ (by decide)).trans ?_
  rw [Poolhd.modify, items_set_self, Poolhd.modify, items_set_self, Poolhd.modify, items_set_self]
  rfl

theorem slots_sentOne (pool : Poolhd) (k : Nat) : (sentOne pool k).count = pool.count ∧
    (sentOne pool k).links = pool.links ∧ (sentOne pool k).iters = pool.iters := by
  rw [sentOne, sentUpTo, if_pos le_rfl]
  exact ⟨rfl, rfl, rfl⟩

theorem turn_fed {k : Nat} {server : Server} (h : Fed k server) (hk : k < 131072) :
    Kernel server oneMore.1 oneMore.2 ∧
      if 2 * INT_MAX < k * (k + 1) + 2 * (k + 1) then turn largeBuffer server oneMore.1 oneMore.2 = .error .offsetRange
      else ∃ next, turn largeBuffer server oneMore.1 oneMore.2 = .ok next ∧ Fed (k + 1) next := by
  have hlive : ∀ events ∈ oneMore.1, ∀ x ∈ events, server.st.pool.Live x.1 := by
    intro events hevents x hx
    obtain rfl := List.mem_singleton.mp hevents
    obtain rfl := List.mem_singleton.mp hx
    exact h.live
  refine ⟨⟨by decide, hlive⟩, ?_⟩
  have hiters : (server.st.pool.waited [(1, 1)]).iters = k + 5 := by
    rw [waited, if_neg (by rw [h.iters, UINT_MAX]; omega), h.iters]
  have hnext := @nextEvent_single server.st.pool 1 1 (by have := h.modIter; omega)
  have hdone := @onDesync_oneMore (server.st.pool.waited [(1, 1)]) k hk h.pair h.flag h.attempt h.data
  have hturn : turn largeBuffer server oneMore.1 oneMore.2 =
      if INT_MAX < (server.st.pool.items 1).buff.offset + (k + 1) then .error .offsetRange
      else .ok { server with
        st := { server.st with pool := sentOne (server.st.pool.waited [(1, 1)]) k }, left := 0, exits := false } := by
    rw [turn, h.left, show oneMore.1 = [[(1, 1)]] from rfl, hnext]
    simp only
    rw [if_neg (by rw [show (server.st.pool.waited [(1, 1)]).items = server.st.pool.items from rfl, h.type]; decide),
      handle]
    simp only [show (server.st.pool.waited [(1, 1)]).items = server.st.pool.items from rfl, h.type,
      show out 1 = false from rfl, hdone]
    by_cases hover : INT_MAX < (server.st.pool.items 1).buff.offset + (k + 1)
    · rw [if_pos hover, if_pos hover]
      rfl
    · rw [if_neg hover, if_neg hover, sentOne, sentUpTo, if_pos le_rfl]
      rfl
  obtain ⟨hcount, hlinks, hkept⟩ := slots_sentOne (server.st.pool.waited [(1, 1)]) k
  have hoffset := h.offset
  rw [hturn]
  by_cases hover : 2 * INT_MAX < k * (k + 1) + 2 * (k + 1)
  · rw [if_pos hover, if_pos (by omega)]
  · rw [if_neg hover, if_neg (by omega)]
    refine ⟨_, rfl, rfl, rfl, ?_, hkept.trans hiters, ?_, ?_, ?_, ?_, ?_, ?_, ?_⟩
    · rw [Live, hcount, hlinks]
      exact h.live
    all_goals simp only [items_sentOne]
    · exact h.modIter
    · exact h.type
    · exact h.pair
    · exact h.flag
    · rw [List.replicate_succ']
      exact congrArg (· ++ [0]) h.data
    · rw [show (server.st.pool.waited [(1, 1)]).items = server.st.pool.items from rfl]
      ring_nf at hoffset ⊢
      omega

theorem fed_connected : Sat (fun _ => False) (Fed 0) (run largeBuffer (started 512) connected) := by
  have hstart : Sat (fun _ => False) (fun server => (server.left = 0 ∧ server.exits = false ∧ server.st.pool.Live 1 ∧
      server.st.pool.iters = 4 ∧ (server.st.pool.items 1).modIter ≤ 4) ∧ (server.st.pool.items 1).type = .desync ∧
      (server.st.pool.items 1).pair = some 2 ∧ (server.st.pool.items 1).flag ≠ FLAG_CONN ∧
      (server.st.pool.items 1).attempt = 0 ∧ (server.st.pool.items 1).buff.data.getD [] = [] ∧
      (server.st.pool.items 1).buff.offset = 0) (run largeBuffer (started 512) connected) := by decide +kernel
  refine Sat.imp hstart fun server h => ?_
  obtain ⟨⟨hleft, hexits, hlive, hiters, hmodIter⟩, htype, hpair, hflag, hattempt, hdata, hoffset⟩ := h
  exact ⟨hleft, hexits, hlive, hiters, hmodIter, htype, hpair, hflag, hattempt, hdata, by rw [hoffset]⟩

theorem run_fed {server : Server} (n : Nat) (hfed : Fed 0 server) (hn : n < 131072)
    (hfits : ∀ j < n, j * (j + 1) + 2 * (j + 1) ≤ 2 * INT_MAX) (hover : 2 * INT_MAX < n * (n + 1) + 2 * (n + 1)) :
    Permitted largeBuffer server (List.replicate n oneMore ++ [oneMore]) ∧
      run largeBuffer server (List.replicate n oneMore ++ [oneMore]) = .error .offsetRange := by
  have hstep (j : Nat) (server : Server) (_ : 0 ≤ j) (hj : j < 0 + n) (h : Fed j server) :
      server.exits = false ∧ Kernel server oneMore.1 oneMore.2 ∧
        ∃ next, turn largeBuffer server oneMore.1 oneMore.2 = .ok next ∧ Fed (j + 1) next := by
    obtain ⟨hkernel, hturn⟩ := turn_fed h (by omega)
    rw [if_neg (by have := hfits j (by omega); omega)] at hturn
    exact ⟨h.exits, hkernel, hturn⟩
  obtain ⟨last, hlast, hrun, hpermitted⟩ := exists_run_replicate n hstep hfed [oneMore]
  rw [Nat.zero_add] at hlast
  obtain ⟨hkernel, hturn⟩ := turn_fed hlast hn
  rw [if_pos hover] at hturn
  refine ⟨hpermitted fun _ => ⟨hkernel, fun next hnext => ?_⟩, hrun.trans ?_⟩
  · rw [hturn] at hnext
    cases hnext
  · rw [run, if_neg (by rw [hlast.exits]; decide)]
    exact congrArg (· >>= fun next => run largeBuffer next []) hturn

theorem endsWith_of_fed (n : Nat) (hn : n < 131072) (hfits : ∀ j < n, j * (j + 1) + 2 * (j + 1) ≤ 2 * INT_MAX)
    (hover : 2 * INT_MAX < n * (n + 1) + 2 * (n + 1)) : EndsWith .offsetRange := by
  obtain ⟨server, hconnected, hfed⟩ := fed_connected.exists_ok
  obtain ⟨hpermitted, hrun⟩ := run_fed n hfed hn hfits hover
  refine endsWith_of_run largeBuffer (connected ++ (List.replicate n oneMore ++ [oneMore])) (by decide) ?_ ?_
  · refine permitted_append (by decide +kernel) fun reached hreached => ?_
    obtain rfl := Except.ok.inj (hconnected.symm.trans hreached)
    exact hpermitted
  · rw [run_append, show run largeBuffer (started largeBuffer.maxOpen.toNat) connected = .ok server from hconnected]
    exact hrun

-- The 65536th byte makes the offset larger than an int.
theorem endsWith_offsetRange : EndsWith .offsetRange := by
  refine endsWith_of_fed 65535 (by decide) (fun j hj => ?_) (by decide)
  have hsquare : j * (j + 1) ≤ 65534 * 65535 := Nat.mul_le_mul (by omega) (by omega)
  rw [INT_MAX]
  omega

end offset

theorem known_iff : Known abort ↔ abort ∈ shortFailures ∨ abort = .delIter ∨ abort = .offsetRange := by
  cases abort <;> decide

end ToInet.Byedpi.Proxy
