import ToInet.Byedpi.Proxy.Handlers

-- What holds as long as the event loop runs.
namespace ToInet.Byedpi.Proxy

open Function ToInet.Lib ToInet.Byedpi.Conev ToInet.Byedpi.Conev.Poolhd ToInet.Byedpi.Desync ToInet.Byedpi.Extend
  ToInet.Byedpi.Mpool ToInet.Byedpi.OptionLoop

variable {params : Params}

section single

variable {T : Nat → Prop} {pool₀ pool : Poolhd} {view : Nat → Option Eval} {val : Nat} {e : Eval} {st : State}
  {calls : Calls}

-- What the system answers: sockets have positive numbers, and the name of a connected socket is known.
structure Documented (calls : Calls) : Prop where
  accepted : ∀ a ∈ calls.accepted, 0 < a.c
  sfd : ∀ sfd ∈ calls.sfd, 0 < sfd
  ufd : ∀ ufd ∈ calls.udp.ufd, 0 < ufd
  cfd : ∀ cfd ∈ calls.udp.cfd, 0 < cfd
  bound : calls.udp.bound ≠ none

theorem Linkage.add_request (h : Linkage params view) {w : Nat} {f : Eval} (hw : view w = none) (hpair : f.pair = none)
    (htype : f.type = .request) (hflag : f.flag ≠ FLAG_CONN) (hsound : Sound params f) :
    Linkage params (update view w (some f)) := by
  have hnone {v : Nat} {x : Eval} (hv : v = w) (hat : view v = some x) : False := by
    rw [hv, hw] at hat
    cases hat
  refine h.frame (· = w) (fun v x p hv hat _ => (hnone hv hat).elim) (fun v hv => update_of_ne hv ..) ?_
    fun v x hv hat => (hnone hv hat).elim
  rintro v x rfl hat
  rw [update_self] at hat
  obtain rfl := Option.some.inj hat
  exact ⟨.single hpair (.inr htype) hflag, hsound⟩

theorem accept_working (h : Working params T pool₀ pool) {accepted : Accepted} (hfd : 0 < accepted.c) :
    Sat (fun _ => False) (Working params T pool₀) (accept pool accepted) := by
  refine Sat.ite (fun _ => h) fun _ => ?_
  refine Sat.bind (h.changes.addEvent .request hfd accepted.registered) ?_
  rintro added (⟨hnone, hadded⟩ | ⟨w, hsome, hw, hadded⟩)
  · rw [hnone]
    exact hadded.working h.linkage h.inside
  · rw [hsome]
    have hnoted := hadded.modify (update_self ..) (f := fun e => { e with in6 := some accepted.client })
      ⟨fun _ => rfl, fun _ => rfl, fun _ => rfl, fun _ => rfl⟩
    rw [update_idem] at hnoted
    have hsound : Sound params (.new .request accepted.c) := new_sound accepted.c fun h => (by cases h)
    have hflag : (Eval.new .request accepted.c).flag ≠ FLAG_CONN := by
      rw [FLAG_CONN]
      exact Nat.zero_ne_add_one 3
    exact hnoted.working (h.linkage.add_request hw rfl rfl hflag
      ⟨hsound.data_ne, hsound.offset, hsound.size, hsound.attempt, hsound.room⟩)
        (h.inside.update_single (h.inside.new hw) rfl)

theorem onAccept_working (h : Working params T pool₀ pool) (hcalls : Documented calls) :
    Sat (fun _ => False) (fun accepted => Working params T pool₀ accepted.1) (onAccept pool calls) := by
  have hfold : Sat (fun _ => False) (Working params T pool₀) (calls.accepted.foldlM accept pool) :=
    Sat.foldlM (fun pool accepted hmem hpool => accept_working hpool (hcalls.accepted accepted hmem)) h
  exact Sat.bind hfold fun pool' hpool' => hpool'

theorem onRequest_served (h : Working params T pool₀ st.pool)
    (hmodes : ModesBelow (groups params).length st.mempool) (hreq : Request st.pool.view val e) (hval : T val)
    (hcalls : Documented calls) :
    Sat Known (fun handled => Served params T pool₀ val handled.1 handled.2) (onRequest params st val calls) := by
  have hclose := h.served_request hreq true
  have hsound := h.linkage.sound val e hreq.at_view
  have hconnect := connectHook_served st h hmodes hreq hval hcalls.sfd
  unfold onRequest
  split
  case h_1 => exact hclose
  case h_2 buffer hrecv =>
    refine Sat.ite (fun _ => Sat.ite (fun _ => ?_) fun _ => ?_) fun _ => ?_
    · split
      case h_1 => exact hclose
      case h_2 =>
        refine Sat.ite (fun _ => hclose) fun _ => ?_
        obtain ⟨hnoted, hreq'⟩ := h.modify_request hreq hval (f := fun e => { e with flag := FLAG_S5 })
          ⟨fun _ => rfl, fun _ => rfl, fun _ => rfl, fun _ => rfl⟩ rfl rfl (by simp [FLAG_S5, FLAG_CONN])
          ⟨hsound.data_ne, hsound.offset, hsound.size, hsound.attempt, hsound.room⟩
        exact hnoted.served_open
    · refine Sat.ite (fun _ => hclose) fun hshort =>
        Sat.ite (fun _ => ?_) fun _ => Sat.ite (fun _ => ?_) fun _ => hclose
      · split
        · exact hclose
        · exact hconnect _
        · exact sat_error (by decide)
      · split
        · exact hclose
        · have hroom := (received_some hrecv).2
          exact udpAssociate_served h hreq hval (by omega) hcalls.ufd hcalls.cfd hcalls.bound _
        · exact sat_error (by decide)
    · refine Sat.ite (fun _ => ?_) fun _ => hclose
      obtain ⟨hnoted, hreq'⟩ := h.modify_request hreq hval (f := fun e => { e with flag := FLAG_S4 })
        ⟨fun _ => rfl, fun _ => rfl, fun _ => rfl, fun _ => rfl⟩ rfl rfl (by simp [FLAG_S4, FLAG_CONN])
        ⟨hsound.data_ne, hsound.offset, hsound.size, hsound.attempt, hsound.room⟩
      simp only
      split
      · exact hnoted.served_request hreq' true
      · exact connectHook_served ⟨_, st.mempool⟩ hnoted hmodes hreq' hval hcalls.sfd _

end single

section loop

variable {T : Nat → Prop} {pool₀ pool : Poolhd} {val : Nat} {e : Eval} {st : State} {calls : Calls}

-- An eval is closed together with all that it is linked to.
theorem closeConn_working (h : Working params T pool₀ pool) (hval : T val) (hv : pool.view val = some e)
    (htype : e.type ≠ .accept) : Sat Known (Working params T pool₀) (closeConn pool val) := by
  obtain ⟨a, x, ha, hlisten⟩ := h.linkage.listener
  have hdata {v : Nat} {y : Eval} (hat : pool.view v = some y) := (h.linkage.sound v y hat).data_ne
  have hopen : pool.view a ≠ none := by
    rw [ha]
    simp
  have hother {v : Nat} {y : Eval} (hat : pool.view v = some y) (hy : y.type ≠ .accept) : a ≠ v := by
    rintro rfl
    obtain rfl := Option.some.inj (ha.symm.trans hat)
    exact hy hlisten
  -- What is closed is a set that is closed under links.
  have hdrop {closed : List Int} {view : Nat → Option Eval} (hinside : Inside T pool₀.view view)
      (hl : Linkage params view) (hdel : Sat (· = .delIter) (Deleted pool closed view) (pool.delEvent val)) :
      Sat Known (Working params T pool₀) (closeConn pool val) := by
    refine Sat.bind (hdel.weaken known_delIter) fun deleted hdeleted => ?_
    exact ⟨hdeleted.well, h.tracks.trans hdeleted.tracks, hdeleted.view ▸ hl, hdeleted.view ▸ hinside⟩
  cases h.linkage.linked val e hv with
  | single hpair =>
      refine hdrop (h.inside.update_none hval) ?_
        (delEvent_single h.well hv hpair (hdata hv) hopen (hother hv htype))
      refine h.linkage.drop (· = val) ?_ (fun v hne => update_of_ne hne ..) ?_ ?_
      · rintro v y p rfl hat hp
        rw [Option.some.inj (hat.symm.trans hv), hpair] at hp
        cases hp
      · rintro v rfl
        exact update_self ..
      · rintro v y rfl hat
        rw [Option.some.inj (hat.symm.trans hv)]
        exact htype
  | @tcp p x' hpair hpv hat hback htcp =>
      have hends : Ends pool.view val p e x' := ⟨hv, hat, hpair, hback, hpv, htcp⟩
      have hp := h.inside.closed val e p hval hv hpair
      refine hdrop ((h.inside.update_none hval).update_none hp) ?_
        (delEvent_two h.well hv hat hpair hback hpv (hdata hv) (hdata hat) hopen (hother hv htype)
          (hother hat hends.ne_accept.2))
      refine h.linkage.drop (fun v => v = val ∨ v = p) hends.closed (fun v hne => ?_) ?_ hends.ne_listener
      · rw [update_of_ne fun heq => hne (.inr heq), update_of_ne fun heq => hne (.inl heq)]
      · rintro v (rfl | rfl)
        · rw [update_of_ne hpv.symm, update_self]
        · exact update_self ..
  | @udp p q x' x'' hpair hpv hqv hqp hatp hatq hnext hback hudp =>
      have hring : Ring pool.view val p q e x' x'' := ⟨hv, hatp, hatq, hpair, hnext, hback, hpv, hqv, hqp, hudp⟩
      have hp := h.inside.closed val e p hval hv hpair
      have hq := h.inside.closed p x' q hp hatp hnext
      refine hdrop (((h.inside.update_none hval).update_none hp).update_none hq) ?_
        (delEvent_three h.well hv hatp hatq hpair hnext hback hpv hqv hqp (hdata hv) (hdata hatp) (hdata hatq) hopen
          (hother hv htype) (hother hatp hudp.2.1.ne_accept) (hother hatq hudp.2.2.ne_accept))
      refine h.linkage.drop (fun v => v = val ∨ v = p ∨ v = q) hring.closed (fun v hne => ?_) ?_ hring.ne_listener
      · rw [update_of_ne fun heq => hne (.inr (.inr heq)), update_of_ne fun heq => hne (.inr (.inl heq)),
          update_of_ne fun heq => hne (.inl heq)]
      · rintro v (rfl | rfl | rfl)
        · rw [update_of_ne hqv.symm, update_of_ne hpv.symm, update_self]
        · rw [update_of_ne hqp.symm, update_self]
        · exact update_self ..

theorem type_items {v : Nat} {e : Eval} (hv : pool.view v = some e) : (pool.items v).type = e.type := by
  rw [← strip_items hv]
  rfl

-- What a handler does to the pool only.
theorem Sat.only {handled : Except Abort (Poolhd × Bool)} {E : Abort → Prop} (hE : ∀ abort, E abort → Known abort)
    (hmodes : ModesBelow (groups params).length st.mempool)
    (h : Sat E (fun handled => Served params T pool₀ val handled.1 handled.2) handled) :
    Sat Known (Kept params T pool₀ val) (handled.map fun handled => ({ st with pool := handled.1 }, handled.2)) := by
  cases handled with
  | error abort => exact hE abort h
  | ok handled => exact ⟨h, hmodes⟩

theorem handle_kept (st : State) (hbfsize : 0 < bfsize params) (h : Working params T pool₀ st.pool) (hval : T val)
    (hmodes : ModesBelow (groups params).length st.mempool) (hv : st.pool.view val = some e) (htype : e.type ≠ .accept)
    (hcalls : Documented calls) (etype : Nat) :
    Sat Known (Kept params T pool₀ val) (handle params st val etype calls) := by
  have hE (abort : Abort) : False → Known abort := False.elim
  have hsame (closes : Bool) : Kept params T pool₀ val (st, closes) := ⟨h.served hv htype closes, hmodes⟩
  rw [handle, type_items hv]
  cases hkind : e.type with
  | accept => exact absurd hkind htype
  | request =>
      refine Sat.ite (fun _ => hsame true) fun _ => ?_
      exact Sat.only (fun _ => id) hmodes (onRequest_served h hmodes (h.linkage.request hv hkind) hval hcalls)
  | connect => exact Sat.only hE hmodes (onConnect_served h hval hv hkind (err etype))
  | ignore => exact hsame _
  | tunnel =>
      obtain ⟨p, x, hends⟩ := h.linkage.ends hv (.inr (.inl hkind))
      have hserved := onTunnel_served h hends hval hkind (out etype) (hup etype) calls
      simp only
      cases htunnel : onTunnel params st.pool val (out etype) (hup etype) calls with
      | error abort =>
          rw [htunnel] at hserved
          exact hserved.elim
      | ok tunnelled =>
          rw [htunnel] at hserved
          exact ⟨hserved, hmodes⟩
  | preTunnel => exact onTunnelCheck_served h hval hmodes hv hkind hcalls.sfd (out etype)
  | udpTunnel =>
      obtain ⟨p, q, e', e'', hring⟩ := h.linkage.ring hv hkind
      exact Sat.only (fun _ => id) hmodes (onUdpTunnel_served h hring hval ((h.linkage.sound val e hv).room hkind)
        calls.resolve calls.datagrams)
  | desync => exact Sat.only (fun _ => id) hmodes (onDesync_served hbfsize h hval hv hkind (out etype))

structure Invariant (params : Params) (server : Server) : Prop where
  valid : Valid params server.st.pool
  pending : server.st.pool.Pending server.left
  modes : ModesBelow (groups params).length server.st.mempool

theorem documented_iff : Documented calls ↔ (∀ a ∈ calls.accepted, 0 < a.c) ∧ (∀ sfd ∈ calls.sfd, 0 < sfd) ∧
    (∀ ufd ∈ calls.udp.ufd, 0 < ufd) ∧ (∀ cfd ∈ calls.udp.cfd, 0 < cfd) ∧ calls.udp.bound ≠ none :=
  ⟨fun h => ⟨h.accepted, h.sfd, h.ufd, h.cfd, h.bound⟩, fun h => ⟨h.1, h.2.1, h.2.2.1, h.2.2.2.1, h.2.2.2.2⟩⟩

instance (calls : Calls) : Decidable (Documented calls) := decidable_of_iff' _ documented_iff

-- epoll_wait tells of sockets that it has been given.
structure Kernel (server : Server) (waits : List (List (Nat × Nat))) (calls : Calls) : Prop where
  documented : Documented calls
  live : ∀ events ∈ waits, ∀ x ∈ events, server.st.pool.Live x.1

theorem kernel_iff {server : Server} {waits : List (List (Nat × Nat))} : Kernel server waits calls ↔
    Documented calls ∧ ∀ events ∈ waits, ∀ x ∈ events, server.st.pool.Live x.1 :=
  ⟨fun h => ⟨h.documented, h.live⟩, fun h => ⟨h.1, h.2⟩⟩

instance (server : Server) (waits : List (List (Nat × Nat))) (calls : Calls) : Decidable (Kernel server waits calls) :=
  decidable_of_iff' _ kernel_iff

-- What is linked to an eval.
def Group (view : Nat → Option Eval) (val w : Nat) : Prop :=
  w = val ∨ ∃ e p, view val = some e ∧ e.pair = some p ∧ (w = p ∨ ∃ e', view p = some e' ∧ e'.pair = some w)

theorem Linkage.group_closed {view : Nat → Option Eval} (h : Linkage params view) {v p : Nat} (hv : Group view val v)
    (hat : view v = some e) (hpair : e.pair = some p) : Group view val p := by
  rcases hv with rfl | ⟨x, q, hx, hq, hv⟩
  · exact .inr ⟨e, p, hat, hpair, .inl rfl⟩
  · rcases hv with rfl | ⟨y, hy, hv⟩
    · exact .inr ⟨x, v, hx, hq, .inr ⟨e, hat, hpair⟩⟩
    · cases h.linked val x hx with
      | single hnone =>
          rw [hq] at hnone
          cases hnone
      | tcp hpair' _ hatp hback =>
          obtain rfl := Option.some.inj (hq.symm.trans hpair')
          obtain rfl := Option.some.inj (hy.symm.trans hatp)
          obtain rfl := Option.some.inj (hv.symm.trans hback)
          obtain rfl := Option.some.inj (hx.symm.trans hat)
          exact .inr ⟨x, q, hx, hq, .inl (Option.some.inj (hpair.symm.trans hq))⟩
      | udp hpair' _ _ _ hatp hatq hnext hback =>
          obtain rfl := Option.some.inj (hq.symm.trans hpair')
          obtain rfl := Option.some.inj (hy.symm.trans hatp)
          obtain rfl := Option.some.inj (hv.symm.trans hnext)
          obtain rfl := Option.some.inj (hatq.symm.trans hat)
          exact .inl (Option.some.inj (hpair.symm.trans hback))

theorem Linkage.inside_group {view : Nat → Option Eval} (h : Linkage params view) (val : Nat) :
    Inside (fun w => Group view val w ∨ view w = none) view view := by
  refine ⟨fun _ _ => rfl, fun v e p hv hat hpair => ?_, fun _ => .inr⟩
  rcases hv with hv | hv
  · exact .inl (h.group_closed hv hat hpair)
  · rw [hv] at hat
    cases hat

theorem inside_none (view : Nat → Option Eval) : Inside (fun w => view w = none) view view := by
  refine ⟨fun _ _ => rfl, fun v e p hv hat _ => ?_, fun _ => id⟩
  rw [hv] at hat
  cases hat

theorem Valid.working (h : Valid params pool) (hinside : Inside T pool.view pool.view) : Working params T pool pool :=
  ⟨h.well, Tracks.refl pool, h.linkage, hinside⟩

theorem Working.valid (h : Working params T pool₀ pool) : Valid params pool := ⟨h.well, h.linkage⟩

-- What is open and not linked to the eval of the event stays as it is.
def Isolated (server : Server) (waits : List (List (Nat × Nat))) (server' : Server) : Prop :=
  ∀ w, server.st.pool.view w ≠ none →
    (∀ event ∈ (server.st.pool.nextEvent server.left waits).2, ¬Group server.st.pool.view event.1 w) →
    server'.st.pool.view w = server.st.pool.view w

-- The event loop keeps the pool valid, whatever an event brings.
theorem turn_spec (hbfsize : 0 < bfsize params) {server : Server} (h : Invariant params server)
    {waits : List (List (Nat × Nat))} (hkernel : Kernel server waits calls) :
    Sat Known (fun server' => Invariant params server' ∧ Isolated server waits server')
      (turn params server waits calls) := by
  rcases hnext : server.st.pool.nextEvent server.left waits with ⟨pool', ready⟩
  obtain ⟨hwell, hview, hready⟩ := nextEvent_spec h.valid.well h.pending hkernel.live hnext
  have hvalid : Valid params pool' := ⟨hwell, hview ▸ h.valid.linkage⟩
  have hdone {T : Nat → Prop} {pool : Poolhd} {left : Nat} (hworking : Working params T pool' pool)
      (hpending : pool'.Pending left) {mempool : Mphdr} (hmodes : ModesBelow (groups params).length mempool)
      (hT : ∀ w, T w → pool'.view w = none ∨ ∃ event ∈ ready, Group pool'.view event.1 w) (exits : Bool) :
      Invariant params { st := { pool := pool, mempool := mempool }, left := left, exits := exits } ∧
        Isolated server waits { st := { pool := pool, mempool := mempool }, left := left, exits := exits } := by
    refine ⟨⟨hworking.valid, hworking.tracks.pending hpending, hmodes⟩, fun w hw hout => ?_⟩
    rw [hnext] at hout
    rw [← hview] at hw hout ⊢
    refine hworking.inside.others w fun hin => ?_
    rcases hT w hin with hnone | ⟨event, hmem, hgroup⟩
    · exact hw hnone
    · exact hout event hmem hgroup
  have hfresh := hvalid.working (inside_none pool'.view)
  rw [turn, hnext]
  cases ready with
  | none => exact hdone hfresh (by intro i hi; omega) h.modes (fun _ => .inl) _
  | some event =>
      obtain ⟨val, etype, left⟩ := event
      obtain ⟨hlive, hpending⟩ := hready val etype left rfl
      have hv : pool'.view val = some (pool'.items val).strip := view_eq_some_iff.mpr ⟨hlive, rfl⟩
      have hT (w : Nat) (hw : Group pool'.view val w ∨ pool'.view w = none) :
          pool'.view w = none ∨ ∃ event ∈ some (val, etype, left), Group pool'.view event.1 w :=
        hw.symm.imp_right fun hgroup => ⟨_, rfl, hgroup⟩
      refine Sat.ite (fun _ => Sat.ite (fun _ => hdone hfresh hpending h.modes (fun _ => .inl) true) fun _ => ?_)
        fun htype => ?_
      · refine Sat.bind ((onAccept_working hfresh hkernel.documented).weaken fun _ => False.elim) ?_
        exact fun accepted haccepted => hdone haccepted hpending h.modes (fun _ => .inl) _
      · have hgroup := hvalid.working (hvalid.linkage.inside_group val)
        refine Sat.bind (handle_kept { server.st with pool := pool' } hbfsize hgroup (.inl (.inl rfl))
          h.modes hv htype hkernel.documented etype) fun handled hkept => ?_
        obtain ⟨hserved, hmodes⟩ := hkept
        refine Sat.ite (fun hcloses => ?_) fun _ => hdone hserved.working hpending hmodes hT false
        obtain ⟨e, hat, hkind⟩ := hserved.closable hcloses
        refine Sat.bind (closeConn_working hserved.working (.inl (.inl rfl)) hat hkind) fun closed hclosed => ?_
        exact hdone hclosed hpending hmodes hT false

-- A run in which the kernel does what it is documented to do.
def Permitted (params : Params) : Server → Turns → Prop
  | _, [] => True
  | server, t :: turns => server.exits = false → Kernel server t.1 t.2 ∧
      ∀ server', turn params server t.1 t.2 = .ok server' → Permitted params server' turns

theorem permitted_of_next {server next : Server} {t : List (List (Nat × Nat)) × Calls} {turns : Turns}
    (hkernel : Kernel server t.1 t.2) (hnext : turn params server t.1 t.2 = .ok next)
    (hrest : Permitted params next turns) : Permitted params server (t :: turns) :=
  fun _ => ⟨hkernel, fun _ hsame => Except.ok.inj (hnext.symm.trans hsame) ▸ hrest⟩

instance decidablePermitted (params : Params) :
    (server : Server) → (turns : Turns) → Decidable (Permitted params server turns)
  | _, [] => isTrue trivial
  | server, t :: turns =>
      if hexits : server.exits = false then
        if hkernel : Kernel server t.1 t.2 then
          match hnext : turn params server t.1 t.2 with
          | .error _ => isTrue fun _ => ⟨hkernel, fun _ hsame => by rw [hnext] at hsame; cases hsame⟩
          | .ok next =>
              match decidablePermitted params next turns with
              | isTrue hrest => isTrue (permitted_of_next hkernel hnext hrest)
              | isFalse hrest => isFalse fun h => hrest ((h hexits).2 next hnext)
        else isFalse fun h => hkernel (h hexits).1
      else isTrue fun h => absurd h hexits

theorem run_invariant (hbfsize : 0 < bfsize params) {server : Server} (h : Invariant params server)
    {turns : Turns} (hturns : Permitted params server turns) :
    Sat Known (Invariant params) (run params server turns) := by
  induction turns generalizing server with
  | nil => exact h
  | cons t turns ih =>
      refine Sat.ite (fun _ => h) fun hexits => ?_
      obtain ⟨hkernel, hrest⟩ := hturns (by simpa using hexits)
      have hturn := turn_spec hbfsize h hkernel
      cases hnext : turn params server t.1 t.2 with
      | error abort => exact hturn.of_eq_error hnext
      | ok server' => exact ih (hturn.of_eq_ok hnext).1 (hrest server' hnext)

theorem wellFormed_initPool (count : Nat) (items : Nat → Eval) : (initPool count items).WellFormed := by
  refine ⟨⟨Nat.zero_le _, fun i hi => hi, fun i _ j _ heq => heq, fun i hi => ?_⟩, fun v hv => ?_⟩
  · exact absurd hi (Nat.not_lt_zero i)
  · obtain ⟨i, hi, -⟩ := hv
    exact absurd hi (Nat.not_lt_zero i)

theorem view_initPool (count : Nat) (items : Nat → Eval) (v : Nat) : (initPool count items).view v = none := by
  rw [view_eq_none_iff]
  rintro ⟨i, hi, -⟩
  exact absurd hi (Nat.not_lt_zero i)

theorem start_invariant (items : Nat → Eval) (srvfd : Int) (registered : Bool) {server : Server}
    (hstart : start params items srvfd registered = .ok (some server)) : Invariant params server := by
  rw [start] at hstart
  have hwell := wellFormed_initPool (2 * params.maxOpen.toNat + 1) items
  have hnone := view_initPool (2 * params.maxOpen.toNat + 1) items
  rcases hadd : (initPool (2 * params.maxOpen.toNat + 1) items).addEvent .accept srvfd registered with abort | added
  · rw [hadd] at hstart
    cases hstart
  · rw [hadd] at hstart
    obtain ⟨hwell', htracks, hview⟩ := addEvent_spec hwell hadd
    rcases hview with ⟨hfull, -⟩ | ⟨w, hsome, -, hview⟩
    · simp [hfull, Bind.bind, Except.bind] at hstart
    · have hserver : { st := { pool := added.1, mempool := memPool }, left := 0, exits := false } = server := by
        simpa [hsome, Bind.bind, Except.bind] using hstart
      subst hserver
      refine ⟨⟨hwell', ?_⟩, fun i hi => absurd hi (Nat.not_lt_zero i),
        modesBelow_memPool _⟩
      rw [hview]
      have honly {v : Nat} {x : Eval} (hat : update (initPool (2 * params.maxOpen.toNat + 1) items).view w
          (some (.new .accept srvfd)) v = some x) : x = .new .accept srvfd := by
        by_cases hvw : v = w
        · rw [hvw, update_self] at hat
          exact (Option.some.inj hat).symm
        · rw [update_of_ne hvw, hnone] at hat
          cases hat
      refine ⟨fun v x hat => ?_, fun v x hat => ?_, w, _, update_self .., rfl⟩
      · rw [honly hat]
        exact .single rfl (.inl rfl) (by rw [FLAG_CONN]; exact Nat.zero_ne_add_one 3)
      · rw [honly hat]
        exact new_sound srvfd fun h => (by cases h)

section attained

-- A system that answers every call well, but for what is received and sent.
def answering (accepted : List Accepted) (recv : Option Bytes) (sends : List Sent) (rounds : List Round) : Calls :=
  { now := 0, resolve := fun _ => none, accepted := accepted, acceptFails := false, recv := recv, stale := []
    reset := false, authSent := true, opened := true, sfd := some 9, registered := true
    udp := ⟨some 10, true, true, some (.inet (toVector 2 []) (toVector 4 []) (toVector 8 [])), some 11, true, true⟩
    optioned := true, modified := true, answered := true, timeoutSet := true, attached := true, sends := sends
    polled := true, sentAll := true, posted := true, drained := .again, rounds := rounds, datagrams := []
    interrupted := false }

-- A client comes and says that it needs no password.
def greeted : Turns :=
  [([[(0, 1)]],
      answering [⟨8, .inet (toVector 2 [4, 1]) (toVector 4 [127, 0, 0, 1]) (toVector 8 []), true, true⟩] none [] []),
   ([[(1, 1)]], answering [] (some [5, 1, 0]) [] [])]

-- It is connected to a server.
def connected : Turns :=
  greeted ++ [([[(1, 1)]], answering [] (some [5, 1, 0, 1, 127, 0, 0, 1, 0, 80]) [] []),
    ([[(2, 4)]], answering [] none [] [])]

def started (maxOpen : Nat) : Server :=
  { st := { pool := (initPool (2 * maxOpen + 1) fun _ => .new .ignore 0).enter 0 (.new .accept 3), mempool := memPool }
    left := 0, exits := false }

end attained

end loop

end ToInet.Byedpi.Proxy
