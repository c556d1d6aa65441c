import ToInet.Byedpi.Proxy
import ToInet.Lib.Outcome

-- How the evals of the pool hang together.
namespace ToInet.Byedpi.Proxy

open Function ToInet.Lib ToInet.Byedpi.Conev ToInet.Byedpi.Conev.Poolhd ToInet.Byedpi.Extend ToInet.Byedpi.Mpool
  ToInet.Byedpi.OptionLoop

-- The end of the client and the end of the server of a connection. What the client has sent is kept for as long as
-- the first answer of the server may lead to another try.
structure Tcp (c r : Eval) : Prop where
  flag_client : c.flag ≠ FLAG_CONN
  flag_server : r.flag = FLAG_CONN
  type_client : c.type = .ignore ∨ c.type = .desync ∨ c.type = .tunnel
  type_server : r.type = .connect ∨ r.type = .tunnel ∨ r.type = .preTunnel ∨ r.type = .desync
  data : r.type = .preTunnel ∨ r.type = .desync → c.buff.data ≠ none
  tunnel : c.type = .tunnel → r.type = .tunnel

-- The half of a connection whose end is read may change all but its kind.
theorem Tcp.replace {x y f : Eval} (h : Tcp x y ∨ Tcp y x) (htype : f.type = x.type) (hflag : f.flag = x.flag)
    (hdata : f.buff.data = none → x.buff.data = none ∨ x.type = .tunnel ∨ y.type = .tunnel) : Tcp f y ∨ Tcp y f := by
  rcases h with h | h
  · refine .inl ⟨hflag ▸ h.flag_client, h.flag_server, htype ▸ h.type_client, h.type_server, fun hy hnone => ?_,
      htype ▸ h.tunnel⟩
    rcases hdata hnone with hx | htunnel
    · exact h.data hy hx
    · rw [htunnel.elim h.tunnel id] at hy
      rcases hy with hy | hy <;> cases hy
  · exact .inr ⟨h.flag_client, hflag ▸ h.flag_server, h.type_client, htype ▸ h.type_server, htype ▸ h.data,
      htype ▸ h.tunnel⟩

-- An eval of a UDP association.
def Udp (e : Eval) : Prop := e.type = .ignore ∨ e.type = .udpTunnel

-- An eval is alone, or one of two that point to each other, or one of three in a round.
inductive Linked (view : Nat → Option Eval) (v : Nat) (e : Eval) : Prop where
  | single (hpair : e.pair = none) (htype : e.type = .accept ∨ e.type = .request) (hflag : e.flag ≠ FLAG_CONN)
  | tcp {p : Nat} {e' : Eval} (hpair : e.pair = some p) (hpv : p ≠ v) (hat : view p = some e')
      (hback : e'.pair = some v) (htcp : Tcp e e' ∨ Tcp e' e)
  | udp {p q : Nat} {e' e'' : Eval} (hpair : e.pair = some p) (hpv : p ≠ v) (hqv : q ≠ v) (hqp : q ≠ p)
      (hatp : view p = some e') (hatq : view q = some e'') (hnext : e'.pair = some q) (hback : e''.pair = some v)
      (hudp : Udp e ∧ Udp e' ∧ Udp e'')

-- The buffer that a UDP association has been asked for with has room for its request.
structure Sound (params : Params) (e : Eval) : Prop where
  data_ne : e.buff.data ≠ some []
  offset : e.buff.data = none → e.buff.offset = 0
  size : (e.buff.data.getD []).length ≤ bfsize params
  attempt : e.attempt < (groups params).length
  room : e.type = .udpTunnel → 8 ≤ bfsize params

structure Linkage (params : Params) (view : Nat → Option Eval) : Prop where
  linked : ∀ v e, view v = some e → Linked view v e
  sound : ∀ v e, view v = some e → Sound params e
  listener : ∃ a e, view a = some e ∧ e.type = .accept

structure Valid (params : Params) (pool : Poolhd) : Prop where
  well : pool.WellFormed
  linkage : Linkage params pool.view

section linkage

variable {params : Params} {view view' : Nat → Option Eval}

-- A place of the pool that nothing is at is none of those that are in use.
theorem ne_of_unused {v w : Nat} {e : Eval} (hv : view v = some e) (hw : view w = none) : v ≠ w := by
  rintro rfl
  rw [hv] at hw
  cases hw

-- No eval outside of a set that is closed under links points into it.
theorem Linkage.outside (h : Linkage params view) {S : Nat → Prop}
    (hclosed : ∀ v e p, S v → view v = some e → e.pair = some p → S p) {w p : Nat} {e : Eval} (hw : ¬S w)
    (hat : view w = some e) (hpair : e.pair = some p) : ¬S p := by
  intro hp
  apply hw
  cases h.linked w e hat with
  | single hnone => rw [hpair] at hnone; cases hnone
  | tcp hpair' _ hatp hback =>
      obtain rfl := Option.some.inj (hpair.symm.trans hpair')
      exact hclosed _ _ _ hp hatp hback
  | udp hpair' _ _ _ hatp hatq hnext hback =>
      obtain rfl := Option.some.inj (hpair.symm.trans hpair')
      exact hclosed _ _ _ (hclosed _ _ _ hp hatp hnext) hatq hback

-- What changes within such a set does not matter to the others.
theorem Linkage.frame (h : Linkage params view) (S : Nat → Prop)
    (hclosed : ∀ v e p, S v → view v = some e → e.pair = some p → S p) (hout : ∀ v, ¬S v → view' v = view v)
    (hin : ∀ v e, S v → view' v = some e → Linked view' v e ∧ Sound params e)
    (hlisten : ∀ v e, S v → view v = some e → e.type ≠ .accept) : Linkage params view' := by
  have hkeep {w p : Nat} {e : Eval} (hw : ¬S w) (hat : view w = some e) (hpair : e.pair = some p) :
      ¬S p ∧ view' p = view p := by
    have hp := h.outside hclosed hw hat hpair
    exact ⟨hp, hout p hp⟩
  refine ⟨fun v e hv => ?_, fun v e hv => ?_, ?_⟩
  · by_cases hS : S v
    · exact (hin v e hS hv).1
    · rw [hout v hS] at hv
      cases h.linked v e hv with
      | single hnone htype hflag => exact .single hnone htype hflag
      | tcp hpair hpv hatp hback htcp =>
          exact .tcp hpair hpv ((hkeep hS hv hpair).2.trans hatp) hback htcp
      | udp hpair hpv hqv hqp hatp hatq hnext hback hudp =>
          obtain ⟨hpS, hatp'⟩ := hkeep hS hv hpair
          obtain ⟨-, hatq'⟩ := hkeep hpS hatp hnext
          exact .udp hpair hpv hqv hqp (hatp'.trans hatp) (hatq'.trans hatq) hnext hback hudp
  · by_cases hS : S v
    · exact (hin v e hS hv).2
    · exact h.sound v e (hout v hS ▸ hv)
  · obtain ⟨a, e, ha, htype⟩ := h.listener
    have hS : ¬S a := fun hS => hlisten a e hS ha htype
    exact ⟨a, e, (hout a hS).trans ha, htype⟩

-- The two ends of a connection.
structure Ends (view : Nat → Option Eval) (v p : Nat) (e e' : Eval) : Prop where
  at_left : view v = some e
  at_right : view p = some e'
  pair_left : e.pair = some p
  pair_right : e'.pair = some v
  ne : p ≠ v
  tcp : Tcp e e' ∨ Tcp e' e

theorem Ends.symm {v p : Nat} {e e' : Eval} (h : Ends view v p e e') : Ends view p v e' e :=
  ⟨h.at_right, h.at_left, h.pair_right, h.pair_left, h.ne.symm, h.tcp.symm⟩

theorem Tcp.ne_accept {c r : Eval} (h : Tcp c r) : c.type ≠ .accept ∧ r.type ≠ .accept := by
  constructor
  · rcases h.type_client with htype | htype | htype <;> rw [htype] <;> decide
  · rcases h.type_server with htype | htype | htype | htype <;> rw [htype] <;> decide

theorem Ends.ne_accept {v p : Nat} {e e' : Eval} (h : Ends view v p e e') : e.type ≠ .accept ∧ e'.type ≠ .accept := by
  rcases h.tcp with htcp | htcp
  · exact htcp.ne_accept
  · exact htcp.ne_accept.symm

-- Only the end of the server has these types.
theorem Ends.of_server {v p : Nat} {e e' : Eval} (h : Ends view v p e e')
    (htype : e.type = .connect ∨ e.type = .preTunnel) : Tcp e' e := by
  refine h.tcp.resolve_left fun htcp => ?_
  rcases htcp.type_client with ht | ht | ht <;> rw [ht] at htype <;> rcases htype with htype | htype <;> cases htype

-- Only the ends of connections have these types.
theorem Linkage.ends (h : Linkage params view) {v : Nat} {e : Eval} (hv : view v = some e)
    (htype : e.type = .connect ∨ e.type = .tunnel ∨ e.type = .preTunnel ∨ e.type = .desync) :
    ∃ p e', Ends view v p e e' := by
  cases h.linked v e hv with
  | single _ hother => rcases htype with ht | ht | ht | ht <;> rcases hother with ho | ho <;> rw [ht] at ho <;> cases ho
  | tcp hpair hpv hat hback htcp => exact ⟨_, _, hv, hat, hpair, hback, hpv, htcp⟩
  | udp _ _ _ _ _ _ _ _ hudp =>
      rcases htype with ht | ht | ht | ht <;> rcases hudp.1 with ho | ho <;> rw [ht] at ho <;> cases ho

theorem Ends.closed {v p : Nat} {e e' : Eval} (h : Ends view v p e e') (w : Nat) (x : Eval) (q : Nat)
    (hw : w = v ∨ w = p) (hat : view w = some x) (hq : x.pair = some q) : q = v ∨ q = p := by
  rcases hw with rfl | rfl
  · obtain rfl := Option.some.inj (h.at_left.symm.trans hat)
    exact .inr (Option.some.inj (hq.symm.trans h.pair_left))
  · obtain rfl := Option.some.inj (h.at_right.symm.trans hat)
    exact .inl (Option.some.inj (hq.symm.trans h.pair_right))

theorem Ends.ne_listener {v p : Nat} {e e' : Eval} (h : Ends view v p e e') (w : Nat) (x : Eval) (hw : w = v ∨ w = p)
    (hat : view w = some x) : x.type ≠ .accept := by
  rcases hw with rfl | rfl
  · obtain rfl := Option.some.inj (h.at_left.symm.trans hat)
    exact h.ne_accept.1
  · obtain rfl := Option.some.inj (h.at_right.symm.trans hat)
    exact h.ne_accept.2

-- Both ends may change at once.
theorem Linkage.update_ends (h : Linkage params view) {v p : Nat} {e e' f f' : Eval} (hends : Ends view v p e e')
    (hpair : f.pair = e.pair) (hpair' : f'.pair = e'.pair) (htcp : Tcp f f' ∨ Tcp f' f) (hsound : Sound params f)
    (hsound' : Sound params f') : Linkage params (update (update view p (some f')) v (some f)) ∧
      Ends (update (update view p (some f')) v (some f)) v p f f' := by
  have hends' : Ends (update (update view p (some f')) v (some f)) v p f f' :=
    ⟨update_self .., by rw [update_of_ne hends.ne, update_self], hpair.trans hends.pair_left,
      hpair'.trans hends.pair_right, hends.ne, htcp⟩
  refine ⟨h.frame (fun w => w = v ∨ w = p) hends.closed (fun w hw => ?_) ?_ hends.ne_listener, hends'⟩
  · rw [update_of_ne fun heq => hw (.inl heq), update_of_ne fun heq => hw (.inr heq)]
  · rintro w x (rfl | rfl) hw
    · obtain rfl := Option.some.inj (hends'.at_left.symm.trans hw)
      exact ⟨.tcp hends'.pair_left hends'.ne hends'.at_right hends'.pair_right hends'.tcp, hsound⟩
    · obtain rfl := Option.some.inj (hends'.at_right.symm.trans hw)
      exact ⟨.tcp hends'.pair_right hends'.ne.symm hends'.at_left hends'.pair_left hends'.tcp.symm, hsound'⟩

theorem Linkage.update_end (h : Linkage params view) {v p : Nat} {e e' f : Eval} (hends : Ends view v p e e')
    (hpair : f.pair = e.pair) (htcp : Tcp f e' ∨ Tcp e' f) (hsound : Sound params f) :
    Linkage params (update view v (some f)) ∧ Ends (update view v (some f)) v p f e' := by
  have hboth := h.update_ends hends hpair rfl htcp hsound (h.sound p e' hends.at_right)
  have hsame : update view p (some e') = view := update_eq_self_iff.mpr hends.at_right.symm
  rwa [hsame] at hboth

end linkage

end ToInet.Byedpi.Proxy
