import ToInet.Byedpi.Proxy.Steps

-- What the handler of each event leaves of the pool.
namespace ToInet.Byedpi.Proxy

open Function ToInet.Lib ToInet.Byedpi.Conev ToInet.Byedpi.Conev.Poolhd ToInet.Byedpi.Desync ToInet.Byedpi.Extend
  ToInet.Byedpi.Mpool ToInet.Byedpi.OptionLoop ToInet.Byedpi.Packets

variable {params : Params} {T : Nat → Prop} {pool₀ pool : Poolhd} {val : Nat}

-- What cannot be ruled out: three assertions, a null pointer, an offset that wraps, and places where memory outside of a
-- buffer is touched.
def Known (abort : Abort) : Prop :=
  abort ∈ [Abort.again, .checkOut, .noClient, .modHttp, .sendOob, .delIter, .logHost, .offsetRange, .redirectHost,
    .tlsSid, .s5Port, .udpRoom, .protectPath]

instance : DecidablePred Known := fun abort => inferInstanceAs (Decidable (abort ∈ _))

theorem known_delIter (abort : Abort) (h : abort = .delIter) : Known abort := by
  rw [h]
  decide

theorem sat_error {α : Type} {P : α → Prop} {abort : Abort} (h : Known abort) : Sat Known P (.error abort) := h

section tunnel

variable {src dst : Nat} {x y : Eval}

theorem Sent.count_le {n k : Nat} {sent : Sent} (h : sent.count n = some k) : k ≤ n := by
  cases sent with
  | again => exact Option.some.inj h ▸ Nat.zero_le n
  | failed => cases h
  | sent m => exact Option.some.inj h ▸ Nat.min_le_right ..

theorem buff_items {v : Nat} {e : Eval} (hv : pool.view v = some e) : (pool.items v).buff = e.buff := by
  rw [← strip_items hv]
  rfl

-- What an end has read and not passed on yet.
def pending (e : Eval) : Bytes := (e.buff.data.getD []).drop e.buff.offset

-- What is read from an end goes to the other one in order, but for what is still pending.
structure Relayed (params : Params) (T : Nat → Prop) (pool₀ : Poolhd) (src dst : Nat) (x y : Eval) (t : Tunnelled) :
    Prop where
  working : Working params T pool₀ t.pool
  src_eq : t.src = src
  passed : t.sent <+: pending x ++ t.received
  ends : ∃ z, Ends t.pool.view src dst z y ∧ z.type = x.type ∧
    (t.closes = false → pending x ++ t.received = t.sent ++ pending z)

-- Nothing is passed on.
theorem Working.relayed_none (h : Working params T pool₀ pool) (hends : Ends pool.view src dst x y) (closes : Bool) :
    Relayed params T pool₀ src dst x y ⟨pool, closes, src, [], []⟩ :=
  ⟨h, rfl, List.nil_prefix, x, hends, rfl, fun _ => List.append_nil _⟩

-- An empty buffer is filled with what could not be sent.
theorem tunnelLoop_relayed (h : Working params T pool₀ pool) (hends : Ends pool.view src dst x y) (hsrc : T src)
    (hdata : x.buff.data = none) (rounds : List Round) :
    Sat (fun _ => False) (Relayed params T pool₀ src dst x y) (tunnelLoop (bfsize params) pool src rounds) := by
  induction rounds generalizing pool x with
  | nil => exact h.relayed_none hends false
  | cons round rounds ih =>
      have hsound := h.linkage.sound src x hends.at_left
      have hnone : pending x = [] := by rw [pending, hdata, Option.getD_none, List.drop_nil]
      rw [tunnelLoop]
      cases round.recv with
      | again => exact h.relayed_none hends false
      | ended => exact h.relayed_none hends true
      | data data =>
          simp only
          generalize hbytes : data.take (bfsize params) = bytes
          obtain ⟨hcount, hends'⟩ := h.modify_end hends hsrc
            (f := fun e => { e with recvCount := e.recvCount + bytes.length })
            ⟨fun _ => rfl, fun _ => rfl, fun _ => rfl, fun _ => rfl⟩ rfl (Tcp.replace hends.tcp rfl rfl .inl)
            ⟨hsound.data_ne, hsound.offset, hsound.size, hsound.attempt, hsound.room⟩
          refine Sat.ite (fun _ => ⟨hcount, rfl, List.nil_prefix, _, hends', rfl, fun hopen => by cases hopen⟩)
            fun hne => ?_
          cases hsent : round.sent.count bytes.length with
          | none => exact ⟨hcount, rfl, List.nil_prefix, _, hends', rfl, fun hopen => by cases hopen⟩
          | some sn =>
              refine Sat.ite (fun hpart => ?_) fun _ => Sat.ite (fun _ => ?_) fun _ => ?_
              · have hbuff := buff_items hends'.at_left
                rw [hbuff, if_neg (by simp [hdata, hsound.offset hdata])]
                have hle := Sent.count_le hsent
                have hlen : (bytes.drop sn).length ≠ 0 := by
                  rw [List.length_drop]
                  omega
                obtain ⟨hfill, hends''⟩ := hcount.modify_end hends' hsrc
                  (f := fun e => { e with buff := { e.buff with data := some (bytes.drop sn) } })
                  ⟨fun _ => rfl, fun _ => rfl, fun _ => rfl, fun _ => rfl⟩ rfl
                  (Tcp.replace hends'.tcp rfl rfl fun hnone => by cases hnone)
                  ⟨fun hnil => hlen (by rw [Option.some.inj hnil]; rfl), fun hnone => (by cases hnone),
                    by rw [← hbytes]; simp, hsound.attempt, hsound.room⟩
                refine ⟨hfill, rfl, ?_, _, hends'', rfl, fun _ => ?_⟩
                · rw [hnone, List.nil_append]
                  exact List.take_prefix ..
                · rw [hnone, List.nil_append, pending, hsound.offset hdata, Option.getD_some, List.drop_zero,
                    List.take_append_drop]
              · refine Sat.bind (ih hcount hends' hdata) fun rest hrest => ?_
                have hpassed := hrest.passed
                obtain ⟨z, hends'', htype, hkept⟩ := hrest.ends
                rw [show pending { x with recvCount := x.recvCount + bytes.length } = pending x from rfl, hnone,
                  List.nil_append] at hpassed hkept
                refine ⟨hrest.working, hrest.src_eq, ?_, z, hends'', htype, fun hopen => ?_⟩
                · rw [hnone, List.nil_append]
                  exact (List.prefix_append_right_inj bytes).mpr hpassed
                · rw [hnone, List.nil_append, hkept hopen, List.append_assoc]
              · refine ⟨hcount, rfl, ?_, _, hends', rfl, fun _ => ?_⟩
                · rw [hnone, List.nil_append]
                · rw [show pending { x with recvCount := x.recvCount + bytes.length } = pending x from rfl, hnone,
                    List.append_nil, List.nil_append]

theorem tunnelFrom_relayed (h : Working params T pool₀ pool) (hends : Ends pool.view src dst x y) (hsrc : T src)
    (htype : x.type = .tunnel ∨ y.type = .tunnel) (hup : Bool) (calls : Calls) :
    Sat (fun _ => False) (Relayed params T pool₀ src dst x y) (tunnelFrom params pool src hup calls) := by
  have hsound := h.linkage.sound src x hends.at_left
  rw [tunnelFrom, partner_eq hends.at_left hends.pair_left]
  refine Sat.bind (P := fun _ => True) trivial fun _ _ => ?_
  simp only [buff_items hends.at_left]
  cases hdata : x.buff.data with
  | none => exact tunnelLoop_relayed h hends hsrc hdata calls.rounds
  | some data =>
      refine Sat.ite (fun _ => h.relayed_none hends true) fun _ => ?_
      have hpending : pending x = data.drop x.buff.offset := by rw [pending, hdata, Option.getD_some]
      rw [← hpending]
      cases calls.drained.count (pending x).length with
      | none => exact h.relayed_none hends true
      | some sn =>
          refine Sat.ite (fun _ => ?_) fun _ => ?_
          · obtain ⟨hskip, hends'⟩ := h.modify_end hends hsrc
              (f := fun e => { e with buff := { e.buff with offset := e.buff.offset + sn } })
              ⟨fun _ => rfl, fun _ => rfl, fun _ => rfl, fun _ => rfl⟩ rfl (Tcp.replace hends.tcp rfl rfl .inl)
              ⟨hsound.data_ne, fun hnone => (by rw [hdata] at hnone; cases hnone), hsound.size, hsound.attempt,
                hsound.room⟩
            refine ⟨hskip, rfl, ?_, _, hends', rfl, fun _ => ?_⟩
            · rw [List.append_nil]
              exact List.take_prefix ..
            · rw [List.append_nil]
              refine (List.take_append_drop sn (pending x)).symm.trans ?_
              rw [pending, pending, List.drop_drop]
          · obtain ⟨hdrain, hends'⟩ := h.modify_end hends hsrc (f := fun e => { e with buff := ⟨none, 0⟩ })
              ⟨fun _ => rfl, fun _ => rfl, fun _ => rfl, fun _ => rfl⟩ rfl
              (Tcp.replace hends.tcp rfl rfl fun _ => .inr htype)
              ⟨fun hnil => (by cases hnil), fun _ => rfl, Nat.zero_le _, hsound.attempt, hsound.room⟩
            refine Sat.ite (fun _ => ?_) fun _ => ?_
            · refine ⟨hdrain, rfl, List.prefix_append .., _, hends', rfl, fun hopen => by cases hopen⟩
            · refine Sat.bind (tunnelLoop_relayed hdrain hends' hsrc rfl calls.rounds) fun looped hlooped => ?_
              have hpassed := hlooped.passed
              obtain ⟨z, hends'', htype', hkept⟩ := hlooped.ends
              rw [show pending { x with buff := ⟨none, 0⟩ } = [] from List.drop_nil, List.nil_append] at hpassed hkept
              refine ⟨hlooped.working, hlooped.src_eq, (List.prefix_append_right_inj _).mpr hpassed, z, hends'', htype',
                fun hopen => ?_⟩
              rw [hkept hopen, List.append_assoc]

-- The end that is read is the one that the event is about, or the other one where that can be written to.
theorem onTunnel_relayed (h : Working params T pool₀ pool) (hends : Ends pool.view val dst x y) (hval : T val)
    (htype : x.type = .tunnel) (out hup : Bool) (calls : Calls) :
    Sat (fun _ => False) (fun t => Relayed params T pool₀ val dst x y t ∨ Relayed params T pool₀ dst val y x t)
      (onTunnel params pool val out hup calls) := by
  refine Sat.ite (fun _ => ?_) fun _ => ?_
  · rw [partner_eq hends.at_left hends.pair_left]
    have hdst := h.inside.closed val x dst hval hends.at_left hends.pair_left
    exact (tunnelFrom_relayed h hends.symm hdst (.inr htype) hup calls).imp fun _ => .inr
  · exact (tunnelFrom_relayed h hends hval (.inl htype) hup calls).imp fun _ => .inl

theorem Relayed.served {t : Tunnelled} (h : Relayed params T pool₀ src dst x y t) (hval : val = src ∨ val = dst) :
    Served params T pool₀ val t.pool t.closes := by
  obtain ⟨z, hends, -, -⟩ := h.ends
  exact h.working.served_end hends hval t.closes

theorem onTunnel_served (h : Working params T pool₀ pool) (hends : Ends pool.view val dst x y) (hval : T val)
    (htype : x.type = .tunnel) (out hup : Bool) (calls : Calls) :
    Sat (fun _ => False) (fun t => Served params T pool₀ val t.pool t.closes)
      (onTunnel params pool val out hup calls) := by
  refine (onTunnel_relayed h hends hval htype out hup calls).imp fun t ht => ?_
  rcases ht with ht | ht
  · exact ht.served (.inl rfl)
  · exact ht.served (.inr rfl)

end tunnel

section connect

variable {view : Nat → Option Eval} {e : Eval} {calls : Calls}

-- What the end of the server is made from.
def server (type : Eid) (sfd : Int) (val : Nat) (dst : SockaddrIna) : Eval :=
  { Eval.new type sfd with pair := some val, in6 := some dst, flag := FLAG_CONN }

-- A connection that cannot be made leaves the pool as it is.
def Unmade (pool₀ : Poolhd) (view : Nat → Option Eval) (made : Poolhd × Bool) : Prop :=
  made.2 = true ∧ Changes pool₀ view made.1

def Made (pool₀ : Poolhd) (view : Nat → Option Eval) (type : Eid) (val : Nat) (e : Eval) (made : Poolhd × Bool) :
    Prop :=
  made.2 = false ∧ ∃ w sfd dst, view w = none ∧
    Changes pool₀ (update (update view w (some (server type sfd val dst))) val
      (some { e with pair := some w, type := .ignore })) made.1

theorem linkConn_changes {w : Nat} {type : Eid} {sfd : Int} (hv : view val = some e) (hw : view w = none)
    (h : Changes pool₀ (update view w (some (.new type sfd))) pool) (dst : SockaddrIna) :
    Changes pool₀ (update (update view w (some (server type sfd val dst))) val
      (some { e with pair := some w, type := .ignore })) (linkConn pool val w dst) := by
  have hne := ne_of_unused hv hw
  have hserver := h.modify (update_self ..)
    (f := fun e => { e with pair := some val, in6 := some dst, flag := FLAG_CONN })
    ⟨fun _ => rfl, fun _ => rfl, fun _ => rfl, fun _ => rfl⟩
  rw [update_idem] at hserver
  exact hserver.modify ((update_of_ne hne ..).trans hv) (f := fun e => { e with pair := some w, type := .ignore })
    ⟨fun _ => rfl, fun _ => rfl, fun _ => rfl, fun _ => rfl⟩

theorem socketMod_known (params : Params) (opened : Bool) : Sat Known (fun _ => True) (socketMod params opened) :=
  Sat.ite (fun _ => trivial) fun _ => Sat.ite (fun _ => by decide) fun _ => trivial

theorem createConn_spec (h : Changes pool₀ view pool) (hv : view val = some e) (hsfd : ∀ sfd ∈ calls.sfd, 0 < sfd)
    (dst : Option SockaddrIna) (type : Eid) :
    Sat Known (fun made => Unmade pool₀ view made ∨ Made pool₀ view type val e made)
      (createConn params pool val dst type calls) := by
  cases dst with
  | none => exact .inl ⟨rfl, h⟩
  | some dst =>
      refine Sat.ite (fun _ => .inl ⟨rfl, h⟩) fun _ => ?_
      refine Sat.bind (socketMod_known params calls.opened) fun failed _ => ?_
      split
      case h_2 => exact .inl ⟨rfl, h⟩
      case h_1 sfd hcalls =>
        refine Sat.bind ((h.addEvent type (hsfd sfd hcalls) calls.registered).weaken fun _ => False.elim) ?_
        rintro added (⟨hnone, hadded⟩ | ⟨w, hsome, hw, hadded⟩)
        · rw [hnone]
          exact .inl ⟨rfl, hadded⟩
        · rw [hsome]
          exact .inr ⟨rfl, w, sfd, dst, hw, linkConn_changes hv hw hadded dst⟩

theorem server_tcp {type : Eid} {sfd : Int} {dst : SockaddrIna} (htype : type = .connect ∨ type = .desync)
    (hflag : e.flag ≠ FLAG_CONN) (hignore : e.type = .ignore) (hdata : type = .desync → e.buff.data ≠ none) :
    Tcp e (server type sfd val dst) := by
  refine ⟨hflag, rfl, .inl hignore, htype.elim .inl fun h => .inr (.inr (.inr h)), ?_, ?_⟩
  · rintro (hpre | hdesync)
    · rcases htype with rfl | rfl <;> cases hpre
    · exact hdata hdesync
  · rw [hignore]
    intro hne
    cases hne

theorem groups_ne : 0 < (groups params).length := by
  rw [groups, List.length_append]
  exact Nat.lt_add_left _ Nat.zero_lt_one

theorem new_sound {type : Eid} (fd : Int) (hroom : type = .udpTunnel → 8 ≤ bfsize params) :
    Sound params (.new type fd) :=
  ⟨fun hnil => (by cases hnil), fun _ => rfl, Nat.zero_le _, groups_ne, hroom⟩

theorem server_sound {type : Eid} {sfd : Int} {dst : SockaddrIna} (htype : type ≠ .udpTunnel) :
    Sound params (server type sfd val dst) :=
  ⟨fun hnil => (by cases hnil), fun _ => rfl, Nat.zero_le _, groups_ne, fun h => absurd h htype⟩

-- The ends that a connection has once it is made.
theorem ends_made {w : Nat} {type : Eid} {sfd : Int} {dst : SockaddrIna} (hne : val ≠ w)
    (htype : type = .connect ∨ type = .desync) (hflag : e.flag ≠ FLAG_CONN)
    (hdata : type = .desync → e.buff.data ≠ none) :
    Ends (update (update view w (some (server type sfd val dst))) val (some { e with pair := some w, type := .ignore }))
      val w { e with pair := some w, type := .ignore } (server type sfd val dst) :=
  ⟨update_self .., by rw [update_of_ne hne.symm, update_self], rfl, rfl, hne.symm,
    .inl (server_tcp htype hflag rfl hdata)⟩

theorem Request.made {w : Nat} {sfd : Int} {dst : SockaddrIna} (hl : Linkage params view) (hreq : Request view val e)
    (hw : view w = none) : Linkage params (update (update view w (some (server .connect sfd val dst))) val
      (some { e with pair := some w, type := .ignore })) := by
  have hne := ne_of_unused hreq.at_view hw
  have hsound := hl.sound val e hreq.at_view
  have hold {v : Nat} {x : Eval} (hv : v = val ∨ v = w) (hat : view v = some x) : x = e := by
    rcases hv with rfl | rfl
    · exact Option.some.inj (hat.symm.trans hreq.at_view)
    · rw [hw] at hat
      cases hat
  refine hl.connect (fun v => v = val ∨ v = w) ?_ ?_ ?_
    (ends_made hne (.inl rfl) hreq.flag fun h => (by cases h)) (fun v _ hv _ => hv)
    ⟨hsound.data_ne, hsound.offset, hsound.size, hsound.attempt, fun h => (by cases h)⟩ (server_sound (by decide))
  · intro v x p hv hat hpair
    rw [hold hv hat, hreq.pair] at hpair
    cases hpair
  · intro v hv
    rw [update_of_ne fun h => hv (.inl h), update_of_ne fun h => hv (.inr h)]
  · intro v x hv hat
    rw [hold hv hat, hreq.type]
    decide

end connect

section modes

variable {n : Nat} {mempool : Mphdr} {cacheTtl now : Int} {dst : SockaddrIna}

-- Every mode that is remembered is the number of a group.
def ModesBelow (n : Nat) (mempool : Mphdr) : Prop := ∀ key e, memGet mempool key = some e → e.m < n

theorem modesBelow_memPool (n : Nat) : ModesBelow n memPool := by
  intro key e he
  rw [memGet_memPool] at he
  cases he

theorem modesBelow_modeAddGet (h : ModesBelow n mempool) {m : Int} (hm : m < n) :
    ModesBelow n (modeAddGet cacheTtl mempool dst m now).1 := by
  intro key e he
  have hstep := memGet_modeStep cacheTtl mempool ⟨dst, m, now⟩ key
  rw [modeStep, he, Option.map_some] at hstep
  split at hstep
  case isTrue =>
    split at hstep
    · cases hstep
    · obtain ⟨hmode, -⟩ := Prod.mk.inj (Option.some.inj hstep)
      rw [hmode]
      exact hm
  case isFalse =>
    obtain ⟨e', he', heq⟩ := Option.map_eq_some_iff.mp hstep.symm
    obtain ⟨hmode, -⟩ := Prod.mk.inj heq
    rw [← hmode]
    exact h key e' he'

theorem toNat_modeAddGet_lt (h : ModesBelow n mempool) (hn : 0 < n) :
    (modeAddGet cacheTtl mempool dst (-1) now).2.toNat < n := by
  simp only [modeAddGet]
  rw [if_neg (by decide), if_neg (by decide)]
  cases hfind : memGet mempool dst.key with
  | none => exact hn
  | some e =>
      have hlt := h dst.key e hfind
      simp only
      split <;> omega

end modes

section request

variable {st : State} {e : Eval} {calls : Calls}

theorem connectHook_served (st : State) (h : Working params T pool₀ st.pool)
    (hmodes : ModesBelow (groups params).length st.mempool) (hreq : Request st.pool.view val e) (hval : T val)
    (hsfd : ∀ sfd ∈ calls.sfd, 0 < sfd) (dst : SockaddrIna) :
    Sat Known (fun made => Served params T pool₀ val made.1 made.2)
      (connectHook params st val dst .connect calls) := by
  have hsound := h.linkage.sound val e hreq.at_view
  have hattempt := @toNat_modeAddGet_lt _ _ params.cacheTtl calls.now dst hmodes groups_ne
  rw [connectHook]
  generalize (modeAddGet params.cacheTtl st.mempool dst (-1) calls.now).2 = m at hattempt
  obtain ⟨hnoted, hreq'⟩ := h.modify_request hreq hval
    (f := fun e => { e with cache := decide (m = 0), attempt := m.toNat })
    ⟨fun _ => rfl, fun _ => rfl, fun _ => rfl, fun _ => rfl⟩ rfl rfl hreq.flag
    ⟨hsound.data_ne, hsound.offset, hsound.size, hattempt, hsound.room⟩
  refine (createConn_spec hnoted.changes hreq'.at_view hsfd dst .connect).imp ?_
  rintro made (⟨hcloses, hmade⟩ | ⟨hcloses, w, sfd, dst, hw, hmade⟩)
  · exact (hmade.working hnoted.linkage hnoted.inside).served_request (hmade.view ▸ hreq') _
  · rw [hcloses]
    have hw' := hnoted.inside.new hw
    exact (hmade.working (hreq'.made hnoted.linkage hw)
      ((hnoted.inside.update_pair hw' hval rfl).update_pair hval hw' rfl)).served_open

end request

section reconnect

variable {view : Nat → Option Eval} {client w : Nat} {c e : Eval} {calls : Calls}

-- What the client is set to for another try.
def retry (m : Nat) (w : Nat) (c : Eval) : Eval :=
  { c with pair := some w, type := .ignore, attempt := m, cache := true, buff := { c.buff with offset := 0 } }

-- The view after a connection is made anew: the old end of the server is gone.
def reconnected (view : Nat → Option Eval) (val client w m : Nat) (c : Eval) (sfd : Int) (dst : SockaddrIna) :
    Nat → Option Eval :=
  update (update (update view w (some (server .desync sfd client dst))) val none) client (some (retry m w c))

theorem Ends.retried {m : Nat} {sfd : Int} {dst : SockaddrIna} (hl : Linkage params view)
    (hends : Ends view val client e c) (htcp : Tcp c e) (hdata : c.buff.data ≠ none) (hw : view w = none)
    (hm : m < (groups params).length) : Linkage params (reconnected view val client w m c sfd dst) := by
  have hwval := (ne_of_unused hends.at_left hw).symm
  have hwclient := (ne_of_unused hends.at_right hw).symm
  have hsound := hl.sound client c hends.at_right
  have hnew : Ends (reconnected view val client w m c sfd dst) client w (retry m w c) (server .desync sfd client dst) :=
    ⟨update_self .., by rw [reconnected, update_of_ne hwclient, update_of_ne hwval, update_self], rfl, rfl, hwclient,
      .inl (server_tcp (.inr rfl) htcp.flag_client rfl fun _ => hdata)⟩
  refine hl.connect (fun v => v = client ∨ v = val ∨ v = w) ?_ ?_ ?_ hnew ?_
    ⟨hsound.data_ne, fun hnone => absurd hnone hdata, hsound.size, hm, fun h => (by cases h)⟩ (server_sound (by decide))
  · rintro v x p (rfl | rfl | rfl) hat hpair
    · obtain rfl := Option.some.inj (hat.symm.trans hends.at_right)
      exact .inr (.inl (Option.some.inj (hpair.symm.trans hends.pair_right)))
    · obtain rfl := Option.some.inj (hat.symm.trans hends.at_left)
      exact .inl (Option.some.inj (hpair.symm.trans hends.pair_left))
    · rw [hw] at hat
      cases hat
  · intro v hv
    rw [reconnected, update_of_ne fun h => hv (.inl h), update_of_ne fun h => hv (.inr (.inl h)),
      update_of_ne fun h => hv (.inr (.inr h))]
  · rintro v x (rfl | rfl | rfl) hat
    · obtain rfl := Option.some.inj (hat.symm.trans hends.at_right)
      exact hends.ne_accept.2
    · obtain rfl := Option.some.inj (hat.symm.trans hends.at_left)
      exact hends.ne_accept.1
    · rw [hw] at hat
      cases hat
  · rintro v x (rfl | rfl | rfl) hat
    · exact .inl rfl
    · rw [reconnected, update_of_ne hends.ne.symm, update_self] at hat
      cases hat
    · exact .inr rfl

theorem reconnect_served (h : Working params T pool₀ pool) (hends : Ends pool.view val client e c) (hval : T val)
    (htcp : Tcp c e) (hdata : c.buff.data ≠ none) (hsfd : ∀ sfd ∈ calls.sfd, 0 < sfd) {m : Nat}
    (hm : m < (groups params).length) :
    Sat Known (fun made => Unmade pool₀ pool.view made ∨
      made.2 = false ∧ Working params T pool₀ made.1) (reconnect params pool val m calls) := by
  rw [reconnect, partner_eq hends.at_left hends.pair_left]
  refine Sat.bind (P := (client = ·)) rfl ?_
  rintro _ rfl
  refine Sat.bind (createConn_spec h.changes hends.at_right hsfd _ .desync) ?_
  rintro made (⟨hcloses, hmade⟩ | ⟨hcloses, w, sfd, dst, hw, hmade⟩)
  · rw [if_pos hcloses]
    exact .inl ⟨rfl, hmade⟩
  · rw [hcloses]
    have hwval := (ne_of_unused hends.at_left hw).symm
    have hne := hends.ne
    have hold : (update (update pool.view w (some (server .desync sfd client dst))) client
        (some { c with pair := some w, type := .ignore })) val = some e := by
      rw [update_of_ne hne.symm, update_of_ne hwval.symm, hends.at_left]
    have hcut := hmade.modify hold (f := fun e => { e with pair := none })
      ⟨fun _ => rfl, fun _ => rfl, fun _ => rfl, fun _ => rfl⟩
    refine Sat.bind ((hcut.delSingle (update_self ..) rfl (h.linkage.sound val e hends.at_left).data_ne (w := client)
      (by rw [update_of_ne hne, update_self]; simp) hne).weaken known_delIter) fun deleted hgone => ?_
    have hretry := hgone.modify (v := client) (e := { c with pair := some w, type := .ignore })
      (by rw [update_of_ne hne, update_of_ne hne, update_self])
      (f := fun e => { e with type := .ignore, attempt := m, cache := true, buff := { e.buff with offset := 0 } })
      ⟨fun _ => rfl, fun _ => rfl, fun _ => rfl, fun _ => rfl⟩
    rw [update_idem, update_comm hne, update_idem] at hretry
    have hl : Linkage params (reconnected pool.view val client w m c sfd dst) :=
      hends.retried h.linkage htcp hdata hw hm
    have hw' := h.inside.new hw
    have hclient := h.inside.closed val e client hval hends.at_left hends.pair_left
    exact .inr ⟨rfl, hretry.working hl
      (((h.inside.update_pair hw' hclient rfl).update_none hval).update_pair hclient hw' rfl)⟩

end reconnect

section check

variable {st : State} {client r : Nat} {c e x : Eval} {calls : Calls}

theorem Tcp.tunnelled {x y f g : Eval} (h : Tcp x y ∨ Tcp y x) (htype : f.type = .tunnel) (htype' : g.type = .tunnel)
    (hflag : f.flag = x.flag) (hflag' : g.flag = y.flag) : Tcp f g ∨ Tcp g f := by
  have hends {c r : Eval} (hc : c.type = .tunnel) (hr : r.type = .tunnel) (hflag : c.flag ≠ FLAG_CONN)
      (hflag' : r.flag = FLAG_CONN) : Tcp c r := by
    refine ⟨hflag, hflag', .inr (.inr hc), .inr (.inl hr), fun hother => ?_, fun _ => hr⟩
    rw [hr] at hother
    rcases hother with hother | hother <;> cases hother
  rcases h with h | h
  · exact .inl (hends htype htype' (hflag ▸ h.flag_client) (hflag' ▸ h.flag_server))
  · exact .inr (hends htype' htype (hflag' ▸ h.flag_client) (hflag ▸ h.flag_server))

theorem toTunnel_spec (h : Working params T pool₀ pool) (hends : Ends pool.view client r c x) (hclient : T client)
    (hdata : c.buff.data ≠ none) :
    Sat (fun _ => False) (fun pool' => Working params T pool₀ pool' ∧
      Ends pool'.view client r { c with type := .tunnel, buff := ⟨none, 0⟩ } { x with type := .tunnel })
      (toTunnel pool client) := by
  have hsound := h.linkage.sound client c hends.at_left
  have hsound' := h.linkage.sound r x hends.at_right
  rw [toTunnel, partner_eq hends.at_left hends.pair_left]
  refine Sat.bind (P := (r = ·)) rfl ?_
  rintro _ rfl
  obtain ⟨htyped, hends'⟩ := h.modify_ends hends hclient (f := fun e => { e with type := .tunnel })
    (g := fun e => { e with type := .tunnel }) ⟨fun _ => rfl, fun _ => rfl, fun _ => rfl, fun _ => rfl⟩
    ⟨fun _ => rfl, fun _ => rfl, fun _ => rfl, fun _ => rfl⟩ rfl rfl (Tcp.tunnelled hends.tcp rfl rfl rfl rfl)
    ⟨hsound.data_ne, hsound.offset, hsound.size, hsound.attempt, fun h => (by cases h)⟩
    ⟨hsound'.data_ne, hsound'.offset, hsound'.size, hsound'.attempt, fun h => (by cases h)⟩
  have hsome : c.buff.data.isNone = false := by
    rw [Option.isNone_eq_false_iff, Option.isSome_iff_ne_none]
    exact hdata
  simp only [buff_items hends'.at_left, hsome, Bool.false_eq_true, if_false]
  exact htyped.modify_end hends' hclient (f := fun e => { e with buff := ⟨none, 0⟩ })
    ⟨fun _ => rfl, fun _ => rfl, fun _ => rfl, fun _ => rfl⟩ rfl
      (Tcp.replace hends'.tcp rfl rfl fun _ => .inr (.inl rfl))
    ⟨fun hnil => (by cases hnil), fun _ => rfl, Nat.zero_le _, hsound.attempt, fun h => (by cases h)⟩

theorem laterGroup_lt {responses : Responses} {dps : List DesyncParams} {req : Bytes} {attempt m : Nat}
    {failure : Failure} (h : laterGroup responses dps req attempt failure = .found m) : m < dps.length := by
  obtain ⟨dp, hget, -⟩ := (laterGroup_follows h).detected
  exact (List.getElem?_eq_some_iff.mp hget).1

-- The tests of packets.c, where they stay within the buffers.
def packetTests (behind : Bytes) : Responses :=
  ⟨fun req resp => (isHttpRedirect ⟨req, []⟩ ⟨resp, behind⟩).getD false,
    fun req resp => (neqTlsSid ⟨req, []⟩ ⟨resp, behind⟩).getD false⟩

theorem tested_spec {abort : Abort} (habort : Known abort) (result : Option Bool) :
    Sat Known (result.getD false = ·) (tested abort result) := by
  cases result with
  | none => exact habort
  | some result => exact rfl

theorem detected_spec (req behind : Bytes) (failure : Failure) (dp : DesyncParams) :
    Sat Known (detects (packetTests behind) req failure dp = ·) (detected req behind failure dp) := by
  cases failure with
  | torst => exact rfl
  | fin => exact rfl
  | response resp =>
      rw [detected, detects, packetTests]
      refine Sat.bind (tested_spec (by decide) _) ?_
      rintro redirect rfl
      have hbit :
          (if dp.detect.testBit 0 = true then isHttpRedirect ⟨req, []⟩ ⟨resp, behind⟩ else some false).getD false =
          (dp.detect.testBit 0 && (isHttpRedirect ⟨req, []⟩ ⟨resp, behind⟩).getD false) := by
        cases dp.detect.testBit 0 <;> rfl
      rw [hbit]
      refine Sat.ite (fun hredirect => ?_) fun hredirect => ?_
      · rw [hredirect]
        exact rfl
      rw [Bool.not_eq_true] at hredirect
      simp only [hredirect, Bool.false_or]
      refine Sat.ite (fun hbit => ?_) fun hbit => Sat.ite (fun hhello => ?_) fun hhello => ?_
      · rw [hbit]
        exact rfl
      · rw [Bool.not_eq_false] at hbit
        rw [hbit, hhello]
        exact rfl
      · rw [Bool.not_eq_false] at hbit
        rw [Bool.not_eq_true] at hhello
        rw [hbit, hhello, Bool.true_and, Bool.false_or]
        exact tested_spec (by decide) _

theorem nextGroup_spec (req behind : Bytes) (failure : Failure) (dps : List DesyncParams) (m : Nat) :
    Sat Known (later (detects (packetTests behind) req failure) dps m = ·) (nextGroup req behind failure dps m) := by
  induction dps generalizing m with
  | nil => exact rfl
  | cons dp dps ih =>
      rw [nextGroup, later]
      refine Sat.ite (fun hzero => if_pos hzero) fun hzero => ?_
      rw [if_neg hzero]
      refine Sat.bind (detected_spec req behind failure dp) ?_
      rintro found rfl
      refine Sat.ite (fun hfound => if_pos hfound) fun hfound => ?_
      rw [if_neg hfound]
      exact ih (m + 1)

-- Where no other try is made, nothing happens to the connection.
theorem onFailure_served (h : Working params T pool₀ st.pool)
    (hmodes : ModesBelow (groups params).length st.mempool) (hends : Ends st.pool.view val client e c) (hval : T val)
    (htcp : Tcp c e) (hdata : c.buff.data ≠ none) (hsfd : ∀ sfd ∈ calls.sfd, 0 < sfd) (behind : Bytes)
    (failure : Failure) :
    Sat Known (fun tried => (Unmade pool₀ st.pool.view (tried.1.pool, tried.2) ∨
        tried.2 = false ∧ Working params T pool₀ tried.1.pool) ∧ ModesBelow (groups params).length tried.1.mempool)
      (onFailure params st val behind failure calls) := by
  rw [onFailure, partner_eq hends.at_left hends.pair_left]
  refine Sat.bind (P := (client = ·)) rfl ?_
  rintro _ rfl
  refine Sat.bind (nextGroup_spec ..) fun next hnext => ?_
  split
  case h_1 m =>
    refine Sat.bind (reconnect_served h hends hval htcp hdata hsfd (laterGroup_lt hnext)) fun made hmade => ?_
    exact ⟨hmade, hmodes⟩
  case h_2 =>
    refine ⟨.inl ⟨rfl, h.changes⟩, ?_⟩
    cases (st.pool.items val).in6 with
    | none => exact hmodes
    | some dst => exact modesBelow_modeAddGet hmodes (Int.natCast_pos.mpr groups_ne)
  case h_3 => exact ⟨.inl ⟨rfl, h.changes⟩, hmodes⟩

-- What is left of the server after an event.
def Kept (params : Params) (T : Nat → Prop) (pool₀ : Poolhd) (val : Nat) (handled : State × Bool) : Prop :=
  Served params T pool₀ val handled.1.pool handled.2 ∧ ModesBelow (groups params).length handled.1.mempool

theorem onFailure_kept (h : Working params T pool₀ st.pool)
    (hmodes : ModesBelow (groups params).length st.mempool) (hends : Ends st.pool.view val client e c) (hval : T val)
    (htcp : Tcp c e) (hdata : c.buff.data ≠ none) (hsfd : ∀ sfd ∈ calls.sfd, 0 < sfd) (behind : Bytes)
    (failure : Failure) :
    Sat Known (Kept params T pool₀ val) (onFailure params st val behind failure calls) := by
  refine (onFailure_served h hmodes hends hval htcp hdata hsfd behind failure).imp ?_
  rintro tried ⟨⟨hcloses, hmade⟩ | ⟨hcloses, hmade⟩, hmodes'⟩
  · exact ⟨(hmade.working h.linkage h.inside).served_end (by rw [hmade.view]; exact hends) (.inl rfl) _, hmodes'⟩
  · rw [Kept, hcloses]
    exact ⟨hmade.served_open, hmodes'⟩

theorem attempt_items {v : Nat} {e : Eval} (hv : pool.view v = some e) : (pool.items v).attempt = e.attempt := by
  rw [← strip_items hv]
  rfl

theorem onTunnelCheck_served (h : Working params T pool₀ st.pool) (hval : T val)
    (hmodes : ModesBelow (groups params).length st.mempool) (hv : st.pool.view val = some e)
    (htype : e.type = .preTunnel) (hsfd : ∀ sfd ∈ calls.sfd, 0 < sfd) (out : Bool) :
    Sat Known (Kept params T pool₀ val) (onTunnelCheck params st val out calls) := by
  obtain ⟨client, c, hends⟩ := h.linkage.ends hv (.inr (.inr (.inl htype)))
  have htcp := hends.of_server (.inr htype)
  have hdata := htcp.data (.inl htype)
  refine Sat.ite (fun _ => sat_error (by decide)) fun _ => ?_
  split
  case h_1 =>
    refine Sat.ite (fun _ => ?_) fun _ => ?_
    · exact onFailure_kept h hmodes hends hval htcp hdata hsfd [] .torst
    · exact onFailure_kept h hmodes hends hval htcp hdata hsfd [] .fin
  case h_2 bytes _ =>
    refine Sat.bind (onFailure_served h hmodes hends hval htcp hdata hsfd _ (.response bytes)) ?_
    rintro tried ⟨htried, hmodes'⟩
    refine Sat.ite (fun hopen => ?_) fun hcloses => ?_
    · rcases htried with ⟨hcloses, -⟩ | ⟨-, hworking⟩
      · rw [hopen] at hcloses
        cases hcloses
      · refine ⟨?_, hmodes'⟩
        rw [hopen]
        exact hworking.served_open
    · rcases htried with ⟨-, hsame⟩ | ⟨hopen, -⟩
      · have hworking : Working params T pool₀ tried.1.pool := hsame.working h.linkage h.inside
        have hends' : Ends tried.1.pool.view val client e c := by
          rw [hsame.view]
          exact hends
        have hsound := h.linkage.sound val e hv
        obtain ⟨hcount, hends'⟩ := hworking.modify_end hends' hval
          (f := fun e => { e with recvCount := e.recvCount + bytes.length })
          ⟨fun _ => rfl, fun _ => rfl, fun _ => rfl, fun _ => rfl⟩ rfl (Tcp.replace hends'.tcp rfl rfl .inl)
          ⟨hsound.data_ne, hsound.offset, hsound.size, hsound.attempt, hsound.room⟩
        simp only [partner_eq hends'.at_left hends'.pair_left]
        refine Sat.bind (P := (client = ·)) rfl ?_
        rintro _ rfl
        refine Sat.ite (fun _ => ⟨hcount.served_end hends' (.inl rfl) true, hmodes'⟩) fun _ => ?_
        refine Sat.bind ((toTunnel_spec hcount hends'.symm
          (hcount.inside.closed val _ client hval hends'.at_left hends'.pair_left) hdata).weaken fun _ => False.elim) ?_
        rintro tunnel ⟨htunnel, hends''⟩
        have hm : (tunnel.items client).attempt < (groups params).length := by
          rw [attempt_items hends''.at_left]
          exact (h.linkage.sound client c hends.at_right).attempt
        have hserved (closes : Bool) : Served params T pool₀ val tunnel closes :=
          htunnel.served_end hends'' (.inr rfl) closes
        refine Sat.ite (fun _ => ⟨hserved true, hmodes'⟩) fun _ => ?_
        refine Sat.ite (fun _ => ⟨hserved false, hmodes'⟩) fun _ => ?_
        refine Sat.ite (fun hlarge => absurd hm hlarge.not_gt) fun _ => ⟨hserved false, ?_⟩
        cases (tunnel.items val).in6 with
        | none => exact hmodes'
        | some dst => exact modesBelow_modeAddGet hmodes' (Int.ofNat_lt.mpr hm)
      · exact absurd hopen hcloses

end check

section desync

variable {e x : Eval} {p : Nat} {calls : Calls}

theorem flag_items {v : Nat} {e : Eval} (hv : pool.view v = some e) : (pool.items v).flag = e.flag := by
  rw [← strip_items hv]
  rfl

theorem onConnect_served (h : Working params T pool₀ pool) (hval : T val) (hv : pool.view val = some e)
    (htype : e.type = .connect) (failed : Bool) :
    Sat (fun _ => False) (fun handled => Served params T pool₀ val handled.1 handled.2)
      (onConnect pool val failed calls) := by
  obtain ⟨client, c, hends⟩ := h.linkage.ends hv (.inl htype)
  have htcp := hends.of_server (.inl htype)
  have hsound := h.linkage.sound val e hends.at_left
  have hsound' := h.linkage.sound client c hends.at_right
  have hclose := h.served_end hends (.inl rfl) true
  rw [onConnect, partner_eq hends.at_left hends.pair_left]
  refine Sat.ite (fun _ => Sat.ite (fun _ => hclose) fun _ => hclose) fun _ => Sat.ite (fun _ => hclose) fun _ => ?_
  have hopened : Tcp { c with type := .desync } { e with type := .tunnel } := by
    refine ⟨htcp.flag_client, htcp.flag_server, .inr (.inl rfl), .inr (.inl rfl), fun hother => ?_, fun hother => ?_⟩
    · rcases hother with hother | hother <;> cases hother
    · cases hother
  obtain ⟨hworking, hends'⟩ := h.modify_ends hends.symm
    (h.inside.closed val e client hval hends.at_left hends.pair_left) (f := fun e => { e with type := .desync })
    (g := fun e => { e with type := .tunnel }) ⟨fun _ => rfl, fun _ => rfl, fun _ => rfl, fun _ => rfl⟩
    ⟨fun _ => rfl, fun _ => rfl, fun _ => rfl, fun _ => rfl⟩ rfl rfl (.inl hopened)
    ⟨hsound'.data_ne, hsound'.offset, hsound'.size, hsound'.attempt, fun h => (by cases h)⟩
    ⟨hsound.data_ne, hsound.offset, hsound.size, hsound.attempt, fun h => (by cases h)⟩
  exact hworking.served_end hends' (.inr rfl) _

-- The end of the server waits for the rest to be sent, or for the answer.
theorem Tcp.waits {c r f : Eval} (h : Tcp c r) (htype : c.type ≠ .tunnel) (hdata : c.buff.data ≠ none)
    (hf : f.type = .preTunnel ∨ f.type = .desync) (hflag : f.flag = r.flag) (offset : Nat) :
    Tcp { c with buff := { c.buff with offset } } f := by
  refine ⟨h.flag_client, hflag ▸ h.flag_server, h.type_client, .inr (.inr hf), fun _ => hdata, fun htunnel => ?_⟩
  exact absurd htunnel htype

theorem sentUpTo_served {client r : Nat} {c : Eval} (h : Working params T pool₀ pool)
    (hends : Ends pool.view client r c x) (hclient : T client) (htcp : Tcp c x) (htype : c.type ≠ .tunnel)
    (hval : val = client ∨ val = r) (hdata : c.buff.data ≠ none) (n sn : Nat) :
    Served params T pool₀ val (sentUpTo pool client r n sn calls).1 (sentUpTo pool client r n sn calls).2 := by
  have hsound := h.linkage.sound client c hends.at_left
  have hsound' := h.linkage.sound r x hends.at_right
  have hwaits (type : Eid) (hwait : type = .preTunnel ∨ type = .desync) :
      Served params T pool₀ val ((pool.modify client fun e =>
        { e with buff := { e.buff with offset := e.buff.offset + sn } }).modify r
          fun e => { e with type := type }) false := by
    obtain ⟨hworking, hends'⟩ := h.modify_ends hends.symm
      (h.inside.closed client c r hclient hends.at_left hends.pair_left) (f := fun e => { e with type := type })
      (g := fun e => { e with buff := { e.buff with offset := e.buff.offset + sn } })
      ⟨fun _ => rfl, fun _ => rfl, fun _ => rfl, fun _ => rfl⟩ ⟨fun _ => rfl, fun _ => rfl, fun _ => rfl, fun _ => rfl⟩
      rfl rfl (.inr (htcp.waits (f := { x with type := type }) htype hdata hwait rfl _))
      ⟨hsound'.data_ne, hsound'.offset, hsound'.size, hsound'.attempt, fun h =>
        (by rcases hwait with rfl | rfl <;> cases h)⟩
      ⟨hsound.data_ne, fun hnone => absurd hnone hdata, hsound.size, hsound.attempt, hsound.room⟩
    exact hworking.served_open
  rw [sentUpTo]
  simp only
  split_ifs
  · exact hwaits .preTunnel (.inl rfl)
  · obtain ⟨hworking, hends'⟩ := h.modify_end hends hclient
      (f := fun e => { e with buff := { e.buff with offset := e.buff.offset + sn } })
      ⟨fun _ => rfl, fun _ => rfl, fun _ => rfl, fun _ => rfl⟩ rfl (Tcp.replace hends.tcp rfl rfl .inl)
      ⟨hsound.data_ne, fun hnone => absurd hnone hdata, hsound.size, hsound.attempt, hsound.room⟩
    exact hworking.served_end hends' hval true
  · exact hwaits .desync (.inr rfl)

theorem logHost_known (buffer behind : Bytes) : Sat Known (fun _ => True) (logHost buffer behind) := by
  rw [logHost]
  split
  · exact Sat.ite (fun _ => trivial) fun _ => by decide
  · trivial

theorem desyncFrom_served {client r : Nat} {c : Eval} (h : Working params T pool₀ pool)
    (hends : Ends pool.view client r c x) (hclient : T client) (htcp : Tcp c x) (htype : c.type ≠ .tunnel)
    (hval : val = client ∨ val = r) : Sat Known (fun handled => Served params T pool₀ val handled.1 handled.2)
      (desyncFrom params pool client calls) := by
  have hsound := h.linkage.sound client c hends.at_left
  rw [desyncFrom]
  simp only [buff_items hends.at_left, attempt_items hends.at_left]
  refine Sat.ite (fun _ => sat_error (by decide)) fun hsize => ?_
  have hdata : c.buff.data ≠ none := by
    intro hnone
    rw [hnone] at hsize
    exact hsize (.inl rfl)
  rw [partner_eq hends.at_left hends.pair_left]
  refine Sat.bind (P := (r = ·)) rfl ?_
  rintro _ rfl
  refine Sat.ite (fun _ => h.served_end hends hval true) fun _ => ?_
  have hattempt := hsound.attempt
  rw [List.getElem?_eq_getElem hattempt]
  simp only
  refine Sat.bind (logHost_known ..) fun _ _ => ?_
  generalize hdesync : desync (groups params)[c.attempt] (bfsize params) (c.buff.data.getD []) c.buff.offset
    calls.attached calls.sends = result
  rcases result with abort | ⟨stream, short, _ | sn⟩
  · rcases desync_error hdesync with rfl | rfl
    · exact sat_error (by decide)
    · exact sat_error (by decide)
  · exact h.served_end hends hval true
  · exact Sat.ite (fun _ => sat_error (by decide)) fun _ => sentUpTo_served h hends hclient htcp htype hval hdata _ sn

-- Either end may have come to this.
theorem onDesyncAgain_served (h : Working params T pool₀ pool) (hends : Ends pool.view val p e x) (hval : T val)
    (htype : e.type = .desync) : Sat Known (fun handled => Served params T pool₀ val handled.1 handled.2)
      (onDesyncAgain params pool val calls) := by
  rw [onDesyncAgain, flag_items hends.at_left]
  refine Sat.ite (fun hflag => Sat.ite (fun _ => h.served_end hends (.inl rfl) true) fun _ => ?_) fun hflag => ?_
  · have htcp := hends.tcp.resolve_left fun htcp => htcp.flag_client hflag
    have hopen : x.type ≠ .tunnel := by
      intro htunnel
      have hsame := htcp.tunnel htunnel
      rw [htype] at hsame
      cases hsame
    rw [partner_eq hends.at_left hends.pair_left]
    exact desyncFrom_served h hends.symm (h.inside.closed val e p hval hends.at_left hends.pair_left) htcp hopen
      (.inr rfl)
  · have htcp := hends.tcp.resolve_right fun htcp => hflag htcp.flag_server
    exact desyncFrom_served h hends hval htcp (by rw [htype]; decide) (.inl rfl)

theorem received_some {recv : Option Bytes} {count : Nat} {bytes : Bytes} (h : received recv count = some bytes) :
    bytes ≠ [] ∧ bytes.length ≤ count := by
  rw [received] at h
  split at h
  case h_1 => cases h
  case h_2 hne =>
    obtain rfl := Option.some.inj h
    exact ⟨hne, List.length_take_le ..⟩

theorem onDesync_served (hbfsize : 0 < bfsize params) (h : Working params T pool₀ pool) (hval : T val)
    (hv : pool.view val = some e) (htype : e.type = .desync) (out : Bool) :
    Sat Known (fun handled => Served params T pool₀ val handled.1 handled.2) (onDesync params pool val out calls) := by
  obtain ⟨p, x, hends⟩ := h.linkage.ends hv (.inr (.inr (.inr htype)))
  have hsound := h.linkage.sound val e hends.at_left
  rw [onDesync]
  simp only [buff_items hends.at_left]
  refine Sat.ite (fun _ => onDesyncAgain_served h hends hval htype) fun _ => Sat.ite (fun hfull => ?_) fun _ => ?_
  · have hdata : e.buff.data ≠ none := by
      intro hnone
      rw [hnone] at hfull
      exact hbfsize.ne hfull
    refine Sat.bind ((toTunnel_spec h hends hval hdata).weaken fun _ => False.elim) fun pool' htunnel => ?_
    exact htunnel.1.served_open
  · cases hrecv : received calls.recv (bfsize params - (e.buff.data.getD []).length) with
    | none => exact h.served_end hends (.inl rfl) true
    | some bytes =>
        obtain ⟨hne, hlen⟩ := received_some hrecv
        have hsize := hsound.size
        obtain ⟨hread, hends'⟩ := h.modify_end hends hval
          (f := fun e =>
            { e with
              buff := { e.buff with data := some (e.buff.data.getD [] ++ bytes) }
              recvCount := e.recvCount + bytes.length })
          ⟨fun _ => rfl, fun _ => rfl, fun _ => rfl, fun _ => rfl⟩ rfl
          (Tcp.replace hends.tcp rfl rfl fun hnone => by cases hnone)
          ⟨fun hnil => hne (List.append_eq_nil_iff.mp (Option.some.inj hnil)).2, fun hnone => (by cases hnone),
            by rw [Option.getD_some, List.length_append]; omega, hsound.attempt, hsound.room⟩
        have hsound' := hread.linkage.sound val _ hends'.at_left
        have hchosen (m : Nat) (hm : m < (groups params).length) := hread.modify_end hends' hval
          (f := fun e => { e with attempt := m })
          ⟨fun _ => rfl, fun _ => rfl, fun _ => rfl, fun _ => rfl⟩ rfl (Tcp.replace hends'.tcp rfl rfl .inl)
          ⟨hsound'.data_ne, hsound'.offset, hsound'.size, hm, hsound'.room⟩
        simp only [partner_eq hends'.at_left hends'.pair_left]
        refine Sat.bind (P := (p = ·)) rfl ?_
        rintro _ rfl
        refine Sat.ite (fun _ => hread.served_end hends' (.inl rfl) true) fun hm => ?_
        obtain ⟨hworking, hends''⟩ := hchosen _ (not_le.mp hm)
        exact onDesyncAgain_served hworking hends'' hval htype

end desync

section udp

variable {view : Nat → Option Eval} {client pair : Nat} {e e' e'' u : Eval} {calls : Calls}

-- The view after an association is linked.
def associated (view : Nat → Option Eval) (val client pair : Nat) (e u c : Eval) (in6 : Option SockaddrIna) :
    Nat → Option Eval :=
  update (update (update view val (some { e with type := .ignore, pair := some client })) pair
    (some { u with pair := some val })) client (some { c with pair := some pair, flag := FLAG_CONN, in6 := in6 })

theorem Request.associated {c : Eval} (hl : Linkage params view) (hreq : Request view val e)
    (hpair : view pair = none) (hclient : view client = none) (hne : client ≠ pair) (hu : Udp u) (hc : Udp c)
    (hsound : Sound params u) (hsound' : Sound params c) (in6 : Option SockaddrIna) :
    Linkage params (Proxy.associated view val client pair e u c in6) ∧
      Ring (Proxy.associated view val client pair e u c in6) val client pair
        { e with type := .ignore, pair := some client } { c with pair := some pair, flag := FLAG_CONN, in6 := in6 }
        { u with pair := some val } := by
  have hpairval := (ne_of_unused hreq.at_view hpair).symm
  have hclientval := (ne_of_unused hreq.at_view hclient).symm
  have hsound'' := hl.sound val e hreq.at_view
  have honly {v : Nat} {x : Eval} (hv : v = val ∨ v = client ∨ v = pair) (hat : view v = some x) : x = e := by
    rcases hv with rfl | rfl | rfl
    · exact Option.some.inj (hat.symm.trans hreq.at_view)
    · rw [hclient] at hat
      cases hat
    · rw [hpair] at hat
      cases hat
  have hring : Ring (Proxy.associated view val client pair e u c in6) val client pair
      { e with type := .ignore, pair := some client } { c with pair := some pair, flag := FLAG_CONN, in6 := in6 }
      { u with pair := some val } := by
    refine ⟨?_, update_self .., ?_, rfl, rfl, rfl, hclientval, hpairval, hne.symm, .inl rfl, hc, hu⟩
    · rw [Proxy.associated, update_of_ne hclientval.symm, update_of_ne hpairval.symm, update_self]
    · rw [Proxy.associated, update_of_ne hne.symm, update_self]
  refine ⟨hl.associate (fun v => v = val ∨ v = client ∨ v = pair) ?_ ?_ ?_ hring (fun w _ hw _ => hw)
    ⟨hsound''.data_ne, hsound''.offset, hsound''.size, hsound''.attempt, fun h => (by cases h)⟩
    ⟨hsound'.data_ne, hsound'.offset, hsound'.size, hsound'.attempt, hsound'.room⟩
    ⟨hsound.data_ne, hsound.offset, hsound.size, hsound.attempt, hsound.room⟩, hring⟩
  · intro v x p hv hat hp
    rw [honly hv hat, hreq.pair] at hp
    cases hp
  · intro v hv
    rw [Proxy.associated, update_of_ne fun h => hv (.inr (.inl h)), update_of_ne fun h => hv (.inr (.inr h)),
      update_of_ne fun h => hv (.inl h)]
  · intro v x hv hat
    rw [honly hv hat, hreq.type]
    decide

theorem linkUdp_changes {cfd : Int} (hv : view val = some e) (hclient : update view pair (some u) client = none)
    (hval : val ≠ pair)
    (h : Changes pool₀ (update (update view pair (some u)) client (some (.new .udpTunnel cfd))) pool) :
    ∃ in6, Changes pool₀ (Proxy.associated view val client pair e u (.new .udpTunnel cfd) in6)
      (linkUdp pool val client pair) := by
  have hne := (ne_of_unused (update_self ..) hclient).symm
  have hvalclient := ne_of_unused ((update_of_ne hval ..).trans hv) hclient
  have hfirst := h.modify ((update_of_ne hvalclient ..).trans ((update_of_ne hval ..).trans hv))
    (f := fun e => { e with type := .ignore, pair := some client })
    ⟨fun _ => rfl, fun _ => rfl, fun _ => rfl, fun _ => rfl⟩
  have hsecond := hfirst.modify (v := pair) (e := u)
    (by rw [update_of_ne hval.symm, update_of_ne hne.symm, update_self]) (f := fun e => { e with pair := some val })
    ⟨fun _ => rfl, fun _ => rfl, fun _ => rfl, fun _ => rfl⟩
  refine ⟨(pool.items val).in6.map (setPort (toVector 2 [])), ?_⟩
  have hthird := hsecond.modify (v := client) (e := .new .udpTunnel cfd)
    (by rw [update_of_ne hne, update_of_ne hvalclient.symm, update_self])
    (f := fun e =>
      { e with pair := some pair, flag := FLAG_CONN, in6 := (pool.items val).in6.map (setPort (toVector 2 [])) })
    ⟨fun _ => rfl, fun _ => rfl, fun _ => rfl, fun _ => rfl⟩
  rw [update_comm hvalclient.symm, update_comm hne, update_idem, update_comm hval.symm, update_idem] at hthird
  exact hthird

-- A socket that was made for nothing is closed again.
theorem delEvent_unused (hreq : Request view val e) (hl : Linkage params view) (hinside : Inside T pool₀.view view)
    (hpair : view pair = none) (h : Changes pool₀ (update view pair (some u)) pool) (hu : u.pair = none)
    (hdata : u.buff.data ≠ some []) :
    Sat Known (fun made => Served params T pool₀ val made.1 made.2) (do
      let deleted ← pool.delEvent pair
      Except.ok (deleted.1, true)) := by
  have hval := ne_of_unused hreq.at_view hpair
  refine Sat.bind ((h.delSingle (update_self ..) hu hdata (w := val) (by rw [update_of_ne hval, hreq.at_view]; simp)
    hval).weaken known_delIter) fun deleted hgone => ?_
  rw [update_idem, update_eq_self_iff.mpr hpair.symm] at hgone
  exact (hgone.working hl hinside).served_request (hgone.view ▸ hreq) true

theorem udpAssociateClient_served (hreq : Request view val e) (hl : Linkage params view)
    (hinside : Inside T pool₀.view view) (hin : T val) (hpair : view pair = none)
    (h : Changes pool₀ (update view pair (some u)) pool) (hnone : u.pair = none) (hu : Udp u) (hsound : Sound params u)
    (hroom : 8 ≤ bfsize params) (hcfd : ∀ cfd ∈ calls.udp.cfd, 0 < cfd) (hbound : calls.udp.bound ≠ none) :
    Sat Known (fun made => Served params T pool₀ val made.1 made.2) (udpAssociateClient pool val pair calls) := by
  have hval := ne_of_unused hreq.at_view hpair
  unfold udpAssociateClient
  split
  case h_1 hnobound => exact absurd hnobound hbound
  case h_2 => exact delEvent_unused hreq hl hinside hpair h hnone hsound.data_ne
  case h_3 cfd _ hc =>
    refine Sat.bind ((h.addEvent .udpTunnel (hcfd cfd hc) calls.udp.registeredClient).weaken
      fun _ => False.elim) ?_
    rintro added (⟨hfull, hadded⟩ | ⟨client, hsome, hclient, hadded⟩)
    · rw [hfull]
      exact sat_error (by decide)
    · rw [hsome]
      have hne := (ne_of_unused (update_self ..) hclient).symm
      obtain ⟨in6, hlinked⟩ := linkUdp_changes hreq.at_view hclient hval hadded
      rw [update_of_ne hne] at hclient
      have hring := hreq.associated hl hpair hclient hne hu (.inr rfl) hsound (new_sound cfd fun _ => hroom) in6
      have hpair' := hinside.new hpair
      have hclient' := hinside.new hclient
      refine (hlinked.working hring.1 (((hinside.update_pair hin hclient' rfl).update_pair hpair' hin rfl).update_pair
        hclient' hpair' rfl)).served ?_ ?_ _ (e := { e with type := .ignore, pair := some client })
      · rw [hlinked.view]
        exact hring.2.at_first
      · simp

theorem udpAssociate_served (h : Working params T pool₀ pool) (hreq : Request pool.view val e) (hval : T val)
    (hroom : 8 ≤ bfsize params) (hufd : ∀ ufd ∈ calls.udp.ufd, 0 < ufd) (hcfd : ∀ cfd ∈ calls.udp.cfd, 0 < cfd)
    (hbound : calls.udp.bound ≠ none) (dst : SockaddrIna) :
    Sat Known (fun made => Served params T pool₀ val made.1 made.2) (udpAssociate params pool val dst calls) := by
  have hkept {pool' : Poolhd} (hchanges : Changes pool₀ pool.view pool') : Served params T pool₀ val pool' true :=
    (hchanges.working h.linkage h.inside).served_request (hchanges.view ▸ hreq) true
  rw [udpAssociate]
  cases hu : calls.udp.ufd with
  | none => exact hkept h.changes
  | some ufd =>
      refine Sat.bind ((h.changes.addEvent .udpTunnel (hufd ufd hu) calls.udp.registered).weaken
        fun _ => False.elim) ?_
      rintro added (⟨hnone, hadded⟩ | ⟨pair, hsome, hpair, hadded⟩)
      · rw [hnone]
        exact hkept hadded
      · rw [hsome]
        have hsound : Sound params (.new .udpTunnel ufd) := new_sound ufd fun _ => hroom
        refine Sat.ite (fun _ => ?_) fun _ => Sat.bind (socketMod_known params calls.opened) fun failed _ =>
          Sat.ite (fun _ => ?_) fun _ => ?_
        · exact udpAssociateClient_served hreq h.linkage h.inside hval hpair hadded rfl (.inr rfl) hsound hroom hcfd
            hbound
        · exact delEvent_unused hreq h.linkage h.inside hpair hadded rfl hsound.data_ne
        · have hnoted := hadded.modify (update_self ..)
            (f := fun e => { e with in6 := some (if bound6 params then mapFix dst true else dst) })
            ⟨fun _ => rfl, fun _ => rfl, fun _ => rfl, fun _ => rfl⟩
          rw [update_idem] at hnoted
          exact udpAssociateClient_served hreq h.linkage h.inside hval hpair hnoted rfl (.inr rfl)
            ⟨hsound.data_ne, hsound.offset, hsound.size, hsound.attempt, hsound.room⟩ hroom hcfd hbound

-- What a datagram leaves of the association that it belongs to.
def Passed (params : Params) (T : Nat → Prop) (pool₀ : Poolhd) (val : Nat) (passed : Poolhd × Option Bool) : Prop :=
  Working params T pool₀ passed.1 ∧ ∃ client pair e e' e'', Ring passed.1.view val client pair e e' e''

theorem udpForward_passed (h : Working params T pool₀ pool) (hring : Ring pool.view val client pair e e' e'')
    (hval : T val) (dst : SockaddrIna) (datagram : Datagram) :
    Sat Known (Passed params T pool₀ val) (udpForward params pool val dst datagram) := by
  have hsame (closes : Option Bool) : Passed params T pool₀ val (pool, closes) := ⟨h, _, _, _, _, _, hring⟩
  rw [udpForward, partner_eq hring.at_first hring.pair_first]
  refine Sat.bind (P := (client = ·)) rfl ?_
  rintro _ rfl
  refine Sat.ite (fun _ => Sat.ite (fun _ => hsame _) fun _ => ?_) fun _ => hsame _
  refine Sat.bind (socketMod_known params datagram.opened) fun failed _ => Sat.ite (fun _ => hsame _) fun _ => ?_
  obtain ⟨hnoted, hring'⟩ := h.modify_ring hring.rotate
    (h.inside.closed val e client hval hring.at_first hring.pair_first)
    (f := fun e => { e with in6 := some (if bound6 params then mapFix dst true else dst) })
    ⟨fun _ => rfl, fun _ => rfl, fun _ => rfl, fun _ => rfl⟩ ⟨rfl, rfl, rfl, rfl, rfl⟩
  exact ⟨hnoted, _, _, _, _, _, hring'.rotate.rotate⟩

theorem noteClient_working (h : Working params T pool₀ pool) (hring : Ring pool.view val client pair e e' e'')
    (hval : T val) (addr : SockaddrIna) : Working params T pool₀ (noteClient pool val addr) ∧
      ∃ f, Ring (noteClient pool val addr).view val client pair f e' e'' := by
  rw [noteClient]
  split
  · obtain ⟨hnoted, hring'⟩ := h.modify_ring hring hval (f := fun e => { e with in6 := some addr })
      ⟨fun _ => rfl, fun _ => rfl, fun _ => rfl, fun _ => rfl⟩ ⟨rfl, rfl, rfl, rfl, rfl⟩
    exact ⟨hnoted, _, hring'⟩
  · exact ⟨h, e, hring⟩

theorem udpOfClient_passed (h : Working params T pool₀ pool) (hring : Ring pool.view val client pair e e' e'')
    (hval : T val) (hroom : 8 ≤ bfsize params) (resolve : Bytes → Option SockaddrIna) (bytes : Bytes)
    (datagram : Datagram) :
    Sat Known (Passed params T pool₀ val) (udpOfClient params resolve pool val bytes datagram) := by
  have hsame : Passed params T pool₀ val (pool, none) := ⟨h, _, _, _, _, _, hring⟩
  refine Sat.ite (fun _ => hsame) fun _ => Sat.ite (fun _ => hsame) fun _ => ?_
  obtain ⟨hnoted, f, hring'⟩ := noteClient_working h hring hval datagram.addr
  have hsame' : Passed params T pool₀ val (noteClient pool val datagram.addr, none) := ⟨hnoted, _, _, _, _, _, hring'⟩
  refine Sat.ite (fun hsmall => by omega) fun _ => Sat.ite (fun _ => hsame') fun _ => ?_
  split
  · exact hsame'
  · exact udpForward_passed hnoted hring' hval _ datagram
  · exact sat_error (by decide)

theorem udpOfServer_passed (h : Working params T pool₀ pool) (hring : Ring pool.view val client pair e e' e'')
    (datagram : Datagram) : Sat Known (Passed params T pool₀ val) (udpOfServer pool val datagram) := by
  rw [udpOfServer, partner_eq hring.at_first hring.pair_first]
  refine Sat.bind (P := (client = ·)) rfl ?_
  rintro _ rfl
  rw [partner_eq hring.at_second hring.pair_second]
  exact ⟨h, _, _, _, _, _, hring⟩

theorem onDatagram_passed (h : Working params T pool₀ pool) (hring : Ring pool.view val client pair e e' e'')
    (hval : T val) (hroom : 8 ≤ bfsize params) (resolve : Bytes → Option SockaddrIna) (bytes : Bytes)
    (datagram : Datagram) :
    Sat Known (Passed params T pool₀ val) (onDatagram params resolve pool val bytes datagram) :=
  Sat.ite (fun _ => udpOfClient_passed h hring hval hroom resolve bytes datagram)
    fun _ => udpOfServer_passed h hring datagram

theorem onUdpTunnel_served (h : Working params T pool₀ pool) (hring : Ring pool.view val client pair e e' e'')
    (hval : T val) (hroom : 8 ≤ bfsize params) (resolve : Bytes → Option SockaddrIna) (datagrams : List Datagram) :
    Sat Known (fun handled => Served params T pool₀ val handled.1 handled.2)
      (onUdpTunnel params resolve pool val datagrams) := by
  induction datagrams generalizing pool client pair e e' e'' with
  | nil => exact h.served_open
  | cons datagram datagrams ih =>
      rw [onUdpTunnel]
      cases datagram.recv with
      | again => exact h.served_open
      | ended => exact h.served hring.at_first hring.udp.1.ne_accept true
      | data data =>
          simp only
          generalize data.take (if (pool.items val).flag = FLAG_CONN then bfsize params else bfsize params - 22) = bytes
          obtain ⟨hcount, hring'⟩ := h.modify_ring hring hval
            (f := fun e => { e with recvCount := e.recvCount + bytes.length })
            ⟨fun _ => rfl, fun _ => rfl, fun _ => rfl, fun _ => rfl⟩ ⟨rfl, rfl, rfl, rfl, rfl⟩
          refine Sat.ite (fun _ => sat_error (by decide)) fun _ =>
            Sat.ite (fun _ => hcount.served hring'.at_first hring'.udp.1.ne_accept true) fun _ => ?_
          refine Sat.bind (onDatagram_passed hcount hring' hval hroom resolve bytes datagram) fun passed hpassed => ?_
          obtain ⟨hworking, _, _, _, _, _, hring''⟩ := hpassed
          cases passed.2 with
          | none => exact ih hworking hring''
          | some closes => exact hworking.served hring''.at_first hring''.udp.1.ne_accept closes

end udp

end ToInet.Byedpi.Proxy
