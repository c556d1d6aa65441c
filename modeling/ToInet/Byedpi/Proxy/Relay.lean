import ToInet.Byedpi.Proxy.Theorems

-- What goes through a connection that is open in both directions.
namespace ToInet.Byedpi.Proxy

open Function ToInet.Lib ToInet.Byedpi.Conev ToInet.Byedpi.Conev.Poolhd ToInet.Byedpi.Extend ToInet.Byedpi.Mpool
  ToInet.Byedpi.OptionLoop

-- What one turn reads from the end of a tunnel and passes on, if it is about one.
def tunnelled (params : Params) (server : Server) (waits : List (List (Nat × Nat))) (calls : Calls) :
    Option Tunnelled :=
  let next := server.st.pool.nextEvent server.left waits
  next.2.bind fun event =>
    if (next.1.items event.1).type = .tunnel then
      (onTunnel params next.1 event.1 (out event.2.1) (hup event.2.1) calls).toOption
    else none

-- All that the tunnels of a run pass on.
def log (params : Params) : Server → Turns → List Tunnelled
  | _, [] => []
  | server, t :: turns =>
      if server.exits then []
      else (tunnelled params server t.1 t.2).toList ++
        (turn params server t.1 t.2).toOption.elim [] fun server => log params server turns

def readFrom (v : Nat) (log : List Tunnelled) : Bytes := (log.filter fun t => t.src = v).flatMap Tunnelled.received

def sentFrom (v : Nat) (log : List Tunnelled) : Bytes := (log.filter fun t => t.src = v).flatMap Tunnelled.sent

-- A connection on which data goes both ways.
structure Tunnel (view : Nat → Option Eval) (a b : Nat) (x y : Eval) : Prop where
  ends : Ends view a b x y
  type_left : x.type = .tunnel
  type_right : y.type = .tunnel

variable {params : Params} {view : Nat → Option Eval} {a b : Nat} {x y : Eval} {server : Server}
  {calls : Calls} {waits : List (List (Nat × Nat))}

theorem Tunnel.symm (h : Tunnel view a b x y) : Tunnel view b a y x := ⟨h.ends.symm, h.type_right, h.type_left⟩

-- Only the two ends are linked to one of them.
theorem Ends.of_group {v : Nat} (hl : Linkage params view) (h : Ends view a b x y) (hgroup : Group view v a) :
    v = a ∨ v = b := by
  by_contra hout
  rcases hgroup with rfl | ⟨e, p, hat, hpair, hgroup⟩
  · exact hout (.inl rfl)
  · have hp := hl.outside (S := fun w => w = a ∨ w = b) h.closed hout hat hpair
    rcases hgroup with rfl | ⟨e', hat', hpair'⟩
    · exact hp (.inl rfl)
    · exact hl.outside (S := fun w => w = a ∨ w = b) h.closed hp hat' hpair' (.inl rfl)

-- What becomes of an event of a tunnel.
theorem turn_tunnel (h : Invariant params server) (hkernel : Kernel server waits calls) {pool' : Poolhd}
    {val etype left dst : Nat} {e e' : Eval}
    (hnext : server.st.pool.nextEvent server.left waits = (pool', some (val, etype, left)))
    (hends : Ends server.st.pool.view val dst e e') (htype : e.type = .tunnel) :
    ∃ t T, tunnelled params server waits calls = some t ∧
      (Relayed params T pool' val dst e e' t ∨ Relayed params T pool' dst val e' e t) ∧
      (t.closes = false → turn params server waits calls =
        .ok { st := { server.st with pool := t.pool }, left := left, exits := false }) := by
  obtain ⟨hwell, hview, -⟩ := nextEvent_spec h.valid.well h.pending hkernel.live hnext
  have hvalid : Valid params pool' := ⟨hwell, hview ▸ h.valid.linkage⟩
  rw [← hview] at hends
  have hworking := hvalid.working (hvalid.linkage.inside_group val)
  have hrelayed := onTunnel_relayed hworking hends (.inl (.inl rfl)) htype (out etype) (hup etype) calls
  have hkind : (pool'.items val).type = .tunnel := (type_items hends.at_left).trans htype
  cases hresult : onTunnel params pool' val (out etype) (hup etype) calls with
  | error abort => exact (hrelayed.of_eq_error hresult).elim
  | ok t =>
      refine ⟨t, _, ?_, hrelayed.of_eq_ok hresult, fun hopen => ?_⟩
      · rw [tunnelled, hnext]
        simp only [Option.bind_some]
        rw [if_pos hkind, hresult]
        rfl
      · rw [turn, hnext]
        simp only [hkind, reduceCtorEq, if_false]
        rw [handle]
        simp only [hkind, hresult, Except.map, bind, Except.bind, hopen, Bool.false_eq_true, if_false]

-- Whatever is passed on comes from an end that the turn is about.
theorem tunnelled_relayed (h : Invariant params server) (hkernel : Kernel server waits calls) {t : Tunnelled}
    (ht : tunnelled params server waits calls = some t) : ∃ w e e' T pool', Ends server.st.pool.view t.src w e e' ∧
      Relayed params T pool' t.src w e e' t ∧
      ∃ event ∈ (server.st.pool.nextEvent server.left waits).2, event.1 = t.src ∨ event.1 = w := by
  rcases hnext : server.st.pool.nextEvent server.left waits with ⟨pool', ready⟩
  obtain ⟨-, hview, hready⟩ := nextEvent_spec h.valid.well h.pending hkernel.live hnext
  cases ready with
  | none =>
      rw [tunnelled, hnext] at ht
      cases ht
  | some event =>
      obtain ⟨val, etype, left⟩ := event
      have hkind : (pool'.items val).type = .tunnel := by
        by_contra hne
        rw [tunnelled, hnext] at ht
        simp [hne] at ht
      have hv := view_eq_some_iff.mpr ⟨(hready val etype left rfl).1, rfl⟩
      rw [hview] at hv
      obtain ⟨dst, e', hends⟩ := h.valid.linkage.ends hv (.inr (.inl hkind))
      obtain ⟨t', T, hsome, hrelayed, -⟩ := turn_tunnel h hkernel hnext
        hends hkind
      obtain rfl := Option.some.inj (ht.symm.trans hsome)
      rcases hrelayed with hrelayed | hrelayed
      · have hsrc := hrelayed.src_eq
        rw [← hsrc] at hends hrelayed
        exact ⟨dst, _, e', T, pool', hends, hrelayed, _, rfl, .inl hsrc.symm⟩
      · have hsrc := hrelayed.src_eq
        rw [← hsrc] at hends hrelayed
        exact ⟨val, e', _, T, pool', hends.symm, hrelayed, _, rfl, .inr rfl⟩

theorem Ends.unique {v w w' : Nat} {e e' f f' : Eval} (h : Ends view v w e e') (h' : Ends view v w' f f') :
    w' = w ∧ f = e ∧ f' = e' := by
  obtain rfl := Option.some.inj (h.at_left.symm.trans h'.at_left)
  obtain rfl := Option.some.inj (h.pair_left.symm.trans h'.pair_left)
  exact ⟨rfl, rfl, Option.some.inj (h'.at_right.symm.trans h.at_right)⟩

theorem readFrom_single {v : Nat} {t : Tunnelled} (h : t.src = v) : readFrom v [t] = t.received := by
  simp [readFrom, h]

theorem sentFrom_single {v : Nat} {t : Tunnelled} (h : t.src = v) : sentFrom v [t] = t.sent := by
  simp [sentFrom, h]

theorem readFrom_eq_nil {v : Nat} {log : List Tunnelled} (h : ∀ t ∈ log, t.src ≠ v) : readFrom v log = [] := by
  rw [readFrom, List.filter_eq_nil_iff.mpr fun t ht => by simpa using h t ht, List.flatMap_nil]

theorem sentFrom_eq_nil {v : Nat} {log : List Tunnelled} (h : ∀ t ∈ log, t.src ≠ v) : sentFrom v log = [] := by
  rw [sentFrom, List.filter_eq_nil_iff.mpr fun t ht => by simpa using h t ht, List.flatMap_nil]

theorem readFrom_append (v : Nat) (log log' : List Tunnelled) :
    readFrom v (log ++ log') = readFrom v log ++ readFrom v log' := by
  rw [readFrom, List.filter_append, List.flatMap_append, readFrom, readFrom]

theorem sentFrom_append (v : Nat) (log log' : List Tunnelled) :
    sentFrom v (log ++ log') = sentFrom v log ++ sentFrom v log' := by
  rw [sentFrom, List.filter_append, List.flatMap_append, sentFrom, sentFrom]

-- A tunnel is still there, and all that its ends have read is passed on in order or pending.
def Conveyed (view : Nat → Option Eval) (a b : Nat) (x y : Eval) (log : List Tunnelled) : Prop :=
  ∃ x' y', Tunnel view a b x' y' ∧ pending x ++ readFrom a log = sentFrom a log ++ pending x' ∧
    pending y ++ readFrom b log = sentFrom b log ++ pending y'

theorem Conveyed.symm {log : List Tunnelled} (h : Conveyed view a b x y log) : Conveyed view b a y x log := by
  obtain ⟨x', y', htunnel, hforth, hback⟩ := h
  exact ⟨y', x', htunnel.symm, hback, hforth⟩

theorem Tunnel.conveyed {log : List Tunnelled} (h : Tunnel view a b x y) (hlog : ∀ t ∈ log, t.src ≠ a ∧ t.src ≠ b) :
    Conveyed view a b x y log := by
  refine ⟨x, y, h, ?_, ?_⟩
  · rw [readFrom_eq_nil fun t ht => (hlog t ht).1, sentFrom_eq_nil fun t ht => (hlog t ht).1, List.append_nil,
      List.nil_append]
  · rw [readFrom_eq_nil fun t ht => (hlog t ht).2, sentFrom_eq_nil fun t ht => (hlog t ht).2, List.append_nil,
      List.nil_append]

theorem Relayed.conveyed {T : Nat → Prop} {pool₀ : Poolhd} {t : Tunnelled} (h : Relayed params T pool₀ a b x y t)
    (htype : x.type = .tunnel) (htype' : y.type = .tunnel) (hopen : t.closes = false) :
    Conveyed t.pool.view a b x y [t] := by
  obtain ⟨z, hends, hz, hkept⟩ := h.ends
  have hne (t' : Tunnelled) (ht' : t' ∈ [t]) : t'.src ≠ b := by
    rw [List.mem_singleton.mp ht', h.src_eq]
    exact hends.ne.symm
  refine ⟨z, y, ⟨hends, hz.trans htype, htype'⟩, ?_, ?_⟩
  · rw [readFrom_single h.src_eq, sentFrom_single h.src_eq]
    exact hkept hopen
  · rw [readFrom_eq_nil hne, sentFrom_eq_nil hne, List.append_nil, List.nil_append]

-- One turn of the event loop keeps what is pending in step with what is read and passed on.
theorem turn_conveyed (hbfsize : 0 < bfsize params) (h : Invariant params server) (hkernel : Kernel server waits calls)
    (htunnel : Tunnel server.st.pool.view a b x y) {next : Server}
    (hturn : turn params server waits calls = .ok next)
    (hopen : ∀ t ∈ tunnelled params server waits calls, t.src = a ∨ t.src = b → t.closes = false) :
    Conveyed next.st.pool.view a b x y (tunnelled params server waits calls).toList := by
  have hisolated := ((turn_spec hbfsize h hkernel).of_eq_ok hturn).2
  have hl := h.valid.linkage
  -- The turn is about neither end.
  have hother (hout : ∀ event ∈ (server.st.pool.nextEvent server.left waits).2, event.1 ≠ a ∧ event.1 ≠ b)
      (hlog : ∀ t ∈ (tunnelled params server waits calls).toList, t.src ≠ a ∧ t.src ≠ b) :
      Conveyed next.st.pool.view a b x y (tunnelled params server waits calls).toList := by
    have hleft : next.st.pool.view a = server.st.pool.view a := by
      refine hisolated a (by rw [htunnel.ends.at_left]; simp) fun event hevent hgroup => ?_
      rcases htunnel.ends.of_group hl hgroup with heq | heq
      · exact (hout event hevent).1 heq
      · exact (hout event hevent).2 heq
    have hright : next.st.pool.view b = server.st.pool.view b := by
      refine hisolated b (by rw [htunnel.ends.at_right]; simp) fun event hevent hgroup => ?_
      rcases htunnel.ends.symm.of_group hl hgroup with heq | heq
      · exact (hout event hevent).2 heq
      · exact (hout event hevent).1 heq
    have hends := htunnel.ends
    exact Tunnel.conveyed ⟨⟨hleft.trans hends.at_left, hright.trans hends.at_right, hends.pair_left, hends.pair_right,
      hends.ne, hends.tcp⟩, htunnel.type_left, htunnel.type_right⟩ hlog
  -- The turn is about one of them.
  have hend {v w : Nat} {e e' : Eval} (htunnel : Tunnel server.st.pool.view v w e e') {etype left : Nat}
    {pool' : Poolhd}
      (hnext : server.st.pool.nextEvent server.left waits = (pool', some (v, etype, left)))
      (hopen : ∀ t ∈ tunnelled params server waits calls, t.src = v ∨ t.src = w → t.closes = false) :
      Conveyed next.st.pool.view v w e e' (tunnelled params server waits calls).toList := by
    obtain ⟨t, T, hsome, hrelayed, hresult⟩ := turn_tunnel h hkernel hnext htunnel.ends
      htunnel.type_left
    have hcloses : t.closes = false := by
      refine hopen t hsome ?_
      rcases hrelayed with hrelayed | hrelayed
      · exact .inl hrelayed.src_eq
      · exact .inr hrelayed.src_eq
    obtain rfl := Except.ok.inj (hturn.symm.trans (hresult hcloses))
    rw [hsome, Option.toList_some]
    rcases hrelayed with hrelayed | hrelayed
    · exact hrelayed.conveyed htunnel.type_left htunnel.type_right hcloses
    · exact (hrelayed.conveyed htunnel.type_right htunnel.type_left hcloses).symm
  rcases hnext : server.st.pool.nextEvent server.left waits with ⟨pool', ready⟩
  cases ready with
  | none =>
      refine hother (by rw [hnext]; rintro _ ⟨⟩) fun t ht => ?_
      rw [tunnelled, hnext] at ht
      cases ht
  | some event =>
      obtain ⟨val, etype, left⟩ := event
      by_cases hleft : val = a
      · subst hleft
        exact hend htunnel hnext hopen
      · by_cases hright : val = b
        · subst hright
          exact (hend htunnel.symm hnext fun t ht hsrc => hopen t ht hsrc.symm).symm
        · refine hother ?_ fun t ht => ?_
          · rw [hnext]
            rintro event hevent
            obtain rfl := Option.some.inj hevent
            exact ⟨hleft, hright⟩
          · obtain ⟨w, e, e', T, _, hends, -, event, hevent, hval⟩ :=
              tunnelled_relayed h hkernel (Option.mem_toList.mp ht)
            rw [hnext] at hevent
            obtain rfl := Option.some.inj hevent
            constructor
            · intro hsrc
              rw [hsrc] at hends hval
              rw [(htunnel.ends.unique hends).1] at hval
              exact hval.elim hleft hright
            · intro hsrc
              rw [hsrc] at hends hval
              rw [(htunnel.ends.symm.unique hends).1] at hval
              exact hval.elim hright hleft

-- Two parts of a run convey what they convey one after the other.
theorem Conveyed.trans {view' : Nat → Option Eval} {log log' : List Tunnelled}
    (h : Conveyed view a b x y log) (h' : ∀ x' y', Tunnel view a b x' y' → Conveyed view' a b x' y' log') :
    Conveyed view' a b x y (log ++ log') := by
  obtain ⟨x', y', htunnel, hforth, hback⟩ := h
  obtain ⟨x'', y'', htunnel', hforth', hback'⟩ := h' x' y' htunnel
  refine ⟨x'', y'', htunnel', ?_, ?_⟩
  · rw [readFrom_append, sentFrom_append, ← List.append_assoc, hforth, List.append_assoc, hforth', List.append_assoc]
  · rw [readFrom_append, sentFrom_append, ← List.append_assoc, hback, List.append_assoc, hback', List.append_assoc]

-- As long as neither end closes the connection, each has been sent what the other one has sent, in order and without
-- gaps, but for what is pending. What the next event passes on follows.
theorem run_conveyed (hbfsize : 0 < bfsize params) (h : Invariant params server) {turns : Turns}
    (hturns : Permitted params server turns) (htunnel : Tunnel server.st.pool.view a b x y) {last : Server}
    (hrun : run params server turns = .ok last)
    (hopen : ∀ t ∈ log params server turns, t.src = a ∨ t.src = b → t.closes = false) :
    Conveyed last.st.pool.view a b x y (log params server turns) := by
  induction turns generalizing server x y with
  | nil =>
      obtain rfl := Except.ok.inj hrun
      exact htunnel.conveyed fun t ht => by cases ht
  | cons t turns ih =>
      rw [run] at hrun
      rw [log] at hopen ⊢
      by_cases hexits : server.exits
      · rw [if_pos hexits] at hrun ⊢
        obtain rfl := Except.ok.inj hrun
        exact htunnel.conveyed fun t ht => by cases ht
      · rw [if_neg hexits] at hrun hopen ⊢
        obtain ⟨hkernel, hrest⟩ := hturns (by simpa using hexits)
        cases hturn : turn params server t.1 t.2 with
        | error abort =>
            rw [hturn] at hrun
            cases hrun
        | ok next =>
            rw [hturn] at hrun hopen
            have hnext := ((turn_spec hbfsize h hkernel).of_eq_ok hturn).1
            have hfirst := turn_conveyed hbfsize h hkernel htunnel hturn fun t ht hsrc =>
              hopen t (List.mem_append_left _ (Option.mem_toList.mpr ht)) hsrc
            exact hfirst.trans fun x' y' htunnel' => ih hnext (hrest next hturn) htunnel' hrun fun t ht hsrc =>
              hopen t (List.mem_append_right _ ht) hsrc

-- What an event passes on continues what has been passed on before it, even if it ends the connection.
theorem Conveyed.continues (h : Invariant params server) {log : List Tunnelled}
    (hconveyed : Conveyed server.st.pool.view a b x y log) (hkernel : Kernel server waits calls) {t : Tunnelled}
    (ht : tunnelled params server waits calls = some t) (hsrc : t.src = a) :
    sentFrom a log ++ t.sent <+: pending x ++ readFrom a log ++ t.received := by
  obtain ⟨x', y', htunnel, hforth, -⟩ := hconveyed
  obtain ⟨w, e, e', T, pool', hends, hrelayed, -⟩ := tunnelled_relayed h hkernel ht
  rw [hsrc] at hends
  obtain ⟨-, rfl, -⟩ := htunnel.ends.unique hends
  rw [hforth, List.append_assoc]
  exact (List.prefix_append_right_inj _).mpr hrelayed.passed

-- The client has sent a request and the server has answered.
def answered : Turns :=
  connected ++ [([[(1, 1)]], answering [] (some [1, 2]) [.sent 2] []), ([[(2, 1)]], answering [] (some [3]) [] [])]

-- The client sends three bytes, of which the server takes two at once.
def halved : Turns := [([[(1, 1)]], answering [] none [] [⟨.data [4, 5, 6], .sent 2, true⟩])]

end ToInet.Byedpi.Proxy
