import ToInet.Byedpi.Proxy.Links

-- What a handler may do to the pool while it works on an event.
namespace ToInet.Byedpi.Proxy

open Function ToInet.Lib ToInet.Byedpi.Conev ToInet.Byedpi.Conev.Poolhd ToInet.Byedpi.Extend ToInet.Byedpi.Mpool
  ToInet.Byedpi.OptionLoop

-- The first pool has become one with this view.
structure Changes (pool₀ : Poolhd) (view : Nat → Option Eval) (pool : Poolhd) : Prop where
  well : pool.WellFormed
  tracks : Tracks pool₀ pool
  view : pool.view = view

section changes

variable {pool₀ pool : Poolhd} {view : Nat → Option Eval} {v : Nat} {e : Eval}

theorem Changes.refl (h : pool.WellFormed) : Changes pool pool.view pool := ⟨h, Tracks.refl pool, rfl⟩

theorem Changes.modify (h : Changes pool₀ view pool) (hv : view v = some e) {f : Eval → Eval} (hf : Local f) :
    Changes pool₀ (update view v (some (f e))) (pool.modify v f) := by
  obtain ⟨hwell, htracks, rfl⟩ := h
  obtain ⟨hwell', htracks', hview'⟩ := modify_spec hwell hv hf
  exact ⟨hwell', htracks.trans htracks', hview'⟩

theorem strip_items (hv : pool.view v = some e) : (pool.items v).strip = e := (view_eq_some_iff.mp hv).2

theorem partner_eq (hv : pool.view v = some e) {p : Nat} (hpair : e.pair = some p) : partner pool v = .ok p := by
  rw [← strip_items hv] at hpair
  rw [partner, show (pool.items v).pair = some p from hpair]

theorem Changes.addEvent (h : Changes pool₀ view pool) (type : Eid) {fd : Int} (hfd : 0 < fd) (registered : Bool) :
    Sat (fun _ => False) (fun added => added.2 = none ∧ Changes pool₀ view added.1 ∨
      ∃ w, added.2 = some w ∧ view w = none ∧ Changes pool₀ (update view w (some (.new type fd))) added.1)
      (pool.addEvent type fd registered) := by
  obtain ⟨hwell, htracks, rfl⟩ := h
  cases hadd : pool.addEvent type fd registered with
  | error abort =>
      rw [Poolhd.addEvent, if_neg (by omega)] at hadd
      split at hadd
      · cases hadd
      · simp only at hadd
        split at hadd <;> cases hadd
  | ok added =>
      obtain ⟨hwell', htracks', hview⟩ := addEvent_spec hwell hadd
      rcases hview with ⟨hnone, hview⟩ | ⟨w, hsome, hnew, hview⟩
      · exact .inl ⟨hnone, hwell', htracks.trans htracks', hview⟩
      · exact .inr ⟨w, hsome, hnew, hwell', htracks.trans htracks', hview⟩

theorem Changes.delSingle (h : Changes pool₀ view pool) (hv : view v = some e) (hpair : e.pair = none)
    (hdata : e.buff.data ≠ some []) {w : Nat} (hw : view w ≠ none) (hwv : w ≠ v) :
    Sat (· = .delIter) (fun deleted => Changes pool₀ (update view v none) deleted.1) (pool.delEvent v) := by
  obtain ⟨hwell, htracks, rfl⟩ := h
  refine (delEvent_single hwell hv hpair hdata hw hwv).imp fun deleted hdeleted => ?_
  exact ⟨hdeleted.well, htracks.trans hdeleted.tracks, hdeleted.view⟩

end changes

section linkage

variable {params : Params} {view view' : Nat → Option Eval}

-- A set that is closed under links may leave the pool.
theorem Linkage.drop (h : Linkage params view) (S : Nat → Prop)
    (hclosed : ∀ v e p, S v → view v = some e → e.pair = some p → S p) (hout : ∀ v, ¬S v → view' v = view v)
    (hgone : ∀ v, S v → view' v = none) (hlisten : ∀ v e, S v → view v = some e → e.type ≠ .accept) :
    Linkage params view' := by
  refine h.frame S hclosed hout (fun v e hv hat => ?_) hlisten
  rw [hgone v hv] at hat
  cases hat

-- Such a set may become a connection.
theorem Linkage.connect (h : Linkage params view) (S : Nat → Prop)
    (hclosed : ∀ v e p, S v → view v = some e → e.pair = some p → S p) (hout : ∀ v, ¬S v → view' v = view v)
    (hlisten : ∀ v e, S v → view v = some e → e.type ≠ .accept) {c r : Nat} {e e' : Eval} (hends : Ends view' c r e e')
    (honly : ∀ v x, S v → view' v = some x → v = c ∨ v = r) (hsound : Sound params e) (hsound' : Sound params e') :
    Linkage params view' := by
  refine h.frame S hclosed hout (fun v x hv hat => ?_) hlisten
  rcases honly v x hv hat with rfl | rfl
  · obtain rfl := Option.some.inj (hends.at_left.symm.trans hat)
    exact ⟨.tcp hends.pair_left hends.ne hends.at_right hends.pair_right hends.tcp, hsound⟩
  · obtain rfl := Option.some.inj (hends.at_right.symm.trans hat)
    exact ⟨.tcp hends.pair_right hends.ne.symm hends.at_left hends.pair_left hends.tcp.symm, hsound'⟩

-- A client that has not been connected yet.
structure Request (view : Nat → Option Eval) (v : Nat) (e : Eval) : Prop where
  at_view : view v = some e
  pair : e.pair = none
  type : e.type = .request
  flag : e.flag ≠ FLAG_CONN

theorem Linkage.request (h : Linkage params view) {v : Nat} {e : Eval} (hv : view v = some e)
    (htype : e.type = .request) : Request view v e := by
  cases h.linked v e hv with
  | single hpair _ hflag => exact ⟨hv, hpair, htype, hflag⟩
  | tcp _ _ _ _ htcp =>
      rcases htcp with htcp | htcp
      · rcases htcp.type_client with ht | ht | ht <;> rw [ht] at htype <;> cases htype
      · rcases htcp.type_server with ht | ht | ht | ht <;> rw [ht] at htype <;> cases htype
  | udp _ _ _ _ _ _ _ _ hudp => rcases hudp.1 with ht | ht <;> rw [ht] at htype <;> cases htype

-- It may be noted about such a client what it has asked for.
theorem Linkage.update_request (h : Linkage params view) {v : Nat} {e f : Eval} (hreq : Request view v e)
    (hpair : f.pair = e.pair) (htype : f.type = e.type) (hflag : f.flag ≠ FLAG_CONN) (hsound : Sound params f) :
    Linkage params (update view v (some f)) ∧ Request (update view v (some f)) v f := by
  have hreq' : Request (update view v (some f)) v f :=
    ⟨update_self .., hpair.trans hreq.pair, htype.trans hreq.type, hflag⟩
  refine ⟨h.frame (· = v) ?_ (fun w hw => update_of_ne hw ..) ?_ ?_, hreq'⟩
  · rintro w x p rfl hw hp
    rw [Option.some.inj (hw.symm.trans hreq.at_view), hreq.pair] at hp
    cases hp
  · rintro w x rfl hw
    obtain rfl := Option.some.inj (hw.symm.trans hreq'.at_view)
    exact ⟨.single hreq'.pair (.inr hreq'.type) hreq'.flag, hsound⟩
  · rintro w x rfl hw
    rw [Option.some.inj (hw.symm.trans hreq.at_view), hreq.type]
    decide

-- The evals are the same but for what no link depends on.
structure Alike (e f : Eval) : Prop where
  pair : f.pair = e.pair
  type : f.type = e.type
  flag : f.flag = e.flag
  buff : f.buff = e.buff
  attempt : f.attempt = e.attempt

theorem Tcp.alike {c c' r r' : Eval} (h : Tcp c r) (hc : Alike c c') (hr : Alike r r') : Tcp c' r' := by
  refine ⟨?_, ?_, ?_, ?_, ?_, ?_⟩
  · rw [hc.flag]
    exact h.flag_client
  · rw [hr.flag]
    exact h.flag_server
  · rw [hc.type]
    exact h.type_client
  · rw [hr.type]
    exact h.type_server
  · rw [hr.type, hc.buff]
    exact h.data
  · rw [hc.type, hr.type]
    exact h.tunnel

theorem Udp.alike {e f : Eval} (h : Udp e) (hf : Alike e f) : Udp f := by
  rw [Udp, hf.type]
  exact h

theorem Sound.alike {e f : Eval} (h : Sound params e) (hf : Alike e f) : Sound params f := by
  refine ⟨?_, ?_, ?_, ?_, ?_⟩
  · rw [hf.buff]
    exact h.data_ne
  · rw [hf.buff]
    exact h.offset
  · rw [hf.buff]
    exact h.size
  · rw [hf.attempt]
    exact h.attempt
  · rw [hf.type]
    exact h.room

theorem Linked.alike {v : Nat} {e f : Eval} (h : Linked view v e) (hf : Alike e f)
    (hview : ∀ w x, view w = some x → ∃ y, view' w = some y ∧ Alike x y) : Linked view' v f := by
  cases h with
  | single hnone htype hflag =>
      rw [← hf.type] at htype
      rw [← hf.flag] at hflag
      exact .single (hf.pair.trans hnone) htype hflag
  | tcp hpair hpv hat hback htcp =>
      obtain ⟨y, hy, halike⟩ := hview _ _ hat
      refine .tcp (hf.pair.trans hpair) hpv hy (halike.pair.trans hback) ?_
      exact htcp.imp (fun h => h.alike hf halike) fun h => h.alike halike hf
  | udp hpair hpv hqv hqp hatp hatq hnext hback hudp =>
      obtain ⟨y, hy, halike⟩ := hview _ _ hatp
      obtain ⟨z, hz, halike'⟩ := hview _ _ hatq
      refine .udp (hf.pair.trans hpair) hpv hqv hqp hy hz (halike.pair.trans hnext) (halike'.pair.trans hback) ?_
      exact ⟨hudp.1.alike hf, hudp.2.1.alike halike, hudp.2.2.alike halike'⟩

theorem Linkage.update_alike (h : Linkage params view) {v : Nat} {e f : Eval} (hv : view v = some e) (hf : Alike e f) :
    Linkage params (update view v (some f)) := by
  have hview (w : Nat) (x : Eval) (hw : view w = some x) : ∃ y, update view v (some f) w = some y ∧ Alike x y := by
    by_cases hwv : w = v
    · subst hwv
      obtain rfl := Option.some.inj (hw.symm.trans hv)
      exact ⟨f, update_self .., hf⟩
    · exact ⟨x, (update_of_ne hwv ..).trans hw, rfl, rfl, rfl, rfl, rfl⟩
  have hback (w : Nat) (y : Eval) (hw : update view v (some f) w = some y) : ∃ x, view w = some x ∧ Alike x y := by
    by_cases hwv : w = v
    · subst hwv
      rw [update_self] at hw
      exact ⟨e, hv, Option.some.inj hw ▸ hf⟩
    · exact ⟨y, (update_of_ne hwv ..).symm.trans hw, rfl, rfl, rfl, rfl, rfl⟩
  refine ⟨fun w y hw => ?_, fun w y hw => ?_, ?_⟩
  · obtain ⟨x, hx, halike⟩ := hback w y hw
    exact (h.linked w x hx).alike halike hview
  · obtain ⟨x, hx, halike⟩ := hback w y hw
    exact (h.sound w x hx).alike halike
  · obtain ⟨a, x, ha, htype⟩ := h.listener
    obtain ⟨y, hy, halike⟩ := hview a x ha
    exact ⟨a, y, hy, halike.type.trans htype⟩

-- The three evals of a UDP association, each with the next one as its pair.
structure Ring (view : Nat → Option Eval) (v p q : Nat) (e e' e'' : Eval) : Prop where
  at_first : view v = some e
  at_second : view p = some e'
  at_third : view q = some e''
  pair_first : e.pair = some p
  pair_second : e'.pair = some q
  pair_third : e''.pair = some v
  second_ne : p ≠ v
  third_ne : q ≠ v
  third_ne_second : q ≠ p
  udp : Udp e ∧ Udp e' ∧ Udp e''

section ring

variable {v p q : Nat} {e e' e'' f : Eval}

theorem Ring.rotate (h : Ring view v p q e e' e'') : Ring view p q v e' e'' e :=
  ⟨h.at_second, h.at_third, h.at_first, h.pair_second, h.pair_third, h.pair_first, h.third_ne_second, h.second_ne.symm,
    h.third_ne.symm, h.udp.2.1, h.udp.2.2, h.udp.1⟩

theorem Ring.linked (h : Ring view v p q e e' e'') : Linked view v e :=
  .udp h.pair_first h.second_ne h.third_ne h.third_ne_second h.at_second h.at_third h.pair_second h.pair_third h.udp

theorem Linkage.ring (h : Linkage params view) (hv : view v = some e) (htype : e.type = .udpTunnel) :
    ∃ p q e' e'', Ring view v p q e e' e'' := by
  cases h.linked v e hv with
  | single _ hother => rcases hother with ho | ho <;> rw [ho] at htype <;> cases htype
  | tcp _ _ _ _ htcp =>
      rcases htcp with htcp | htcp
      · rcases htcp.type_client with ht | ht | ht <;> rw [ht] at htype <;> cases htype
      · rcases htcp.type_server with ht | ht | ht | ht <;> rw [ht] at htype <;> cases htype
  | udp hpair hpv hqv hqp hatp hatq hnext hback hudp =>
      exact ⟨_, _, _, _, hv, hatp, hatq, hpair, hnext, hback, hpv, hqv, hqp, hudp⟩

theorem Udp.ne_accept (h : Udp e) : e.type ≠ .accept := by
  rcases h with ht | ht <;> rw [ht] <;> decide

theorem Ring.closed (h : Ring view v p q e e' e'') (w : Nat) (x : Eval) (n : Nat) (hw : w = v ∨ w = p ∨ w = q)
    (hat : view w = some x) (hn : x.pair = some n) : n = v ∨ n = p ∨ n = q := by
  rcases hw with rfl | rfl | rfl
  · obtain rfl := Option.some.inj (h.at_first.symm.trans hat)
    exact .inr (.inl (Option.some.inj (hn.symm.trans h.pair_first)))
  · obtain rfl := Option.some.inj (h.at_second.symm.trans hat)
    exact .inr (.inr (Option.some.inj (hn.symm.trans h.pair_second)))
  · obtain rfl := Option.some.inj (h.at_third.symm.trans hat)
    exact .inl (Option.some.inj (hn.symm.trans h.pair_third))

theorem Ring.ne_listener (h : Ring view v p q e e' e'') (w : Nat) (x : Eval) (hw : w = v ∨ w = p ∨ w = q)
    (hat : view w = some x) : x.type ≠ .accept := by
  rcases hw with rfl | rfl | rfl
  · obtain rfl := Option.some.inj (h.at_first.symm.trans hat)
    exact h.udp.1.ne_accept
  · obtain rfl := Option.some.inj (h.at_second.symm.trans hat)
    exact h.udp.2.1.ne_accept
  · obtain rfl := Option.some.inj (h.at_third.symm.trans hat)
    exact h.udp.2.2.ne_accept

theorem Ring.update (h : Ring view v p q e e' e'') (hf : Alike e f) : Ring (update view v (some f)) v p q f e' e'' :=
  ⟨update_self .., (update_of_ne h.second_ne ..).trans h.at_second, (update_of_ne h.third_ne ..).trans h.at_third,
    hf.pair.trans h.pair_first, h.pair_second, h.pair_third, h.second_ne, h.third_ne, h.third_ne_second,
    h.udp.1.alike hf, h.udp.2⟩

-- A set that is closed under links may become a UDP association.
theorem Linkage.associate (h : Linkage params view) (S : Nat → Prop)
    (hclosed : ∀ v e p, S v → view v = some e → e.pair = some p → S p) (hout : ∀ v, ¬S v → view' v = view v)
    (hlisten : ∀ v e, S v → view v = some e → e.type ≠ .accept) (hring : Ring view' v p q e e' e'')
    (honly : ∀ w x, S w → view' w = some x → w = v ∨ w = p ∨ w = q) (hsound : Sound params e)
    (hsound' : Sound params e') (hsound'' : Sound params e'') : Linkage params view' := by
  refine h.frame S hclosed hout (fun w x hw hat => ?_) hlisten
  rcases honly w x hw hat with rfl | rfl | rfl
  · obtain rfl := Option.some.inj (hring.at_first.symm.trans hat)
    exact ⟨hring.linked, hsound⟩
  · obtain rfl := Option.some.inj (hring.at_second.symm.trans hat)
    exact ⟨hring.rotate.linked, hsound'⟩
  · obtain rfl := Option.some.inj (hring.at_third.symm.trans hat)
    exact ⟨hring.rotate.rotate.linked, hsound''⟩

end ring

end linkage

-- Nothing has changed outside of T, no link leads out of T, and what is new is in T.
structure Inside (T : Nat → Prop) (view₀ view : Nat → Option Eval) : Prop where
  others : ∀ w, ¬T w → view w = view₀ w
  closed : ∀ v e p, T v → view v = some e → e.pair = some p → T p
  fresh : ∀ w, view₀ w = none → T w

section inside

variable {T : Nat → Prop} {view₀ view : Nat → Option Eval} {v : Nat}

theorem Inside.new (h : Inside T view₀ view) (hv : view v = none) : T v := by
  by_contra hout
  exact hout (h.fresh v ((h.others v hout).symm.trans hv))

theorem Inside.update {x : Option Eval} (h : Inside T view₀ view) (hv : T v)
    (hx : ∀ e p, x = some e → e.pair = some p → T p) : Inside T view₀ (update view v x) := by
  refine ⟨fun w hw => ?_, fun w e p hw hat hp => ?_, h.fresh⟩
  · rw [update_of_ne fun heq => hw (by rwa [heq])]
    exact h.others w hw
  · by_cases hwv : w = v
    · rw [hwv, update_self] at hat
      exact hx e p hat hp
    · rw [update_of_ne hwv] at hat
      exact h.closed w e p hw hat hp

theorem Inside.update_same {e f : Eval} (h : Inside T view₀ view) (hv : T v) (hat : view v = some e)
    (hpair : f.pair = e.pair) : Inside T view₀ (Function.update view v (some f)) := by
  refine h.update hv fun x p hx hp => ?_
  obtain rfl := Option.some.inj hx
  exact h.closed v e p hv hat (hpair.symm.trans hp)

theorem Inside.update_none (h : Inside T view₀ view) (hv : T v) : Inside T view₀ (Function.update view v none) :=
  h.update hv fun _ _ hx => by cases hx

theorem Inside.update_pair {f : Eval} {q : Nat} (h : Inside T view₀ view) (hv : T v) (hq : T q)
    (hpair : f.pair = some q) : Inside T view₀ (Function.update view v (some f)) := by
  refine h.update hv fun x p hx hp => ?_
  obtain rfl := Option.some.inj hx
  rwa [← Option.some.inj (hpair.symm.trans hp)]

theorem Inside.update_single {f : Eval} (h : Inside T view₀ view) (hv : T v) (hpair : f.pair = none) :
    Inside T view₀ (Function.update view v (some f)) := by
  refine h.update hv fun x p hx hp => ?_
  obtain rfl := Option.some.inj hx
  rw [hpair] at hp
  cases hp

end inside

-- In the middle of an event the links are as they should be.
structure Working (params : Params) (T : Nat → Prop) (pool₀ pool : Poolhd) : Prop where
  well : pool.WellFormed
  tracks : Tracks pool₀ pool
  linkage : Linkage params pool.view
  inside : Inside T pool₀.view pool.view

-- After it, an eval that is to be closed is there and is not the one that listens.
structure Served (params : Params) (T : Nat → Prop) (pool₀ : Poolhd) (val : Nat) (pool : Poolhd) (closes : Bool) :
    Prop where
  working : Working params T pool₀ pool
  closable : closes = true → ∃ e, pool.view val = some e ∧ e.type ≠ .accept

section working

variable {params : Params} {T : Nat → Prop} {pool₀ pool : Poolhd} {view : Nat → Option Eval} {v p val : Nat}
    {e e' : Eval}

theorem Changes.working (h : Changes pool₀ view pool) (hl : Linkage params view) (hinside : Inside T pool₀.view view) :
    Working params T pool₀ pool :=
  ⟨h.well, h.tracks, h.view ▸ hl, h.view ▸ hinside⟩

theorem Working.changes (h : Working params T pool₀ pool) : Changes pool₀ pool.view pool := ⟨h.well, h.tracks, rfl⟩

theorem Working.modify_end (h : Working params T pool₀ pool) (hends : Ends pool.view v p e e') (hv : T v)
    {f : Eval → Eval} (hf : Local f) (hpair : (f e).pair = e.pair) (htcp : Tcp (f e) e' ∨ Tcp e' (f e))
    (hsound : Sound params (f e)) :
    Working params T pool₀ (pool.modify v f) ∧ Ends (pool.modify v f).view v p (f e) e' := by
  have hchanges := h.changes.modify hends.at_left hf
  obtain ⟨hl, hends'⟩ := h.linkage.update_end hends hpair htcp hsound
  exact ⟨hchanges.working hl (h.inside.update_same hv hends.at_left hpair), hchanges.view ▸ hends'⟩

-- The end that is changed last is the left one.
theorem Working.modify_ends (h : Working params T pool₀ pool) (hends : Ends pool.view v p e e') (hv : T v)
    {f g : Eval → Eval} (hf : Local f) (hg : Local g) (hpair : (f e).pair = e.pair) (hpair' : (g e').pair = e'.pair)
    (htcp : Tcp (f e) (g e') ∨ Tcp (g e') (f e)) (hsound : Sound params (f e)) (hsound' : Sound params (g e')) :
    Working params T pool₀ ((pool.modify p g).modify v f) ∧
      Ends ((pool.modify p g).modify v f).view v p (f e) (g e') := by
  have hat := (update_of_ne hends.ne.symm (some (g e')) pool.view).trans hends.at_left
  have hchanges := (h.changes.modify hends.at_right hg).modify hat hf
  obtain ⟨hl, hends'⟩ := h.linkage.update_ends hends hpair hpair' htcp hsound hsound'
  have hp := h.inside.closed v e p hv hends.at_left hends.pair_left
  have hinside := (h.inside.update_same hp hends.at_right hpair').update_same hv hat hpair
  exact ⟨hchanges.working hl hinside, hchanges.view ▸ hends'⟩

theorem Working.modify_request (h : Working params T pool₀ pool) (hreq : Request pool.view v e) (hv : T v)
    {f : Eval → Eval} (hf : Local f) (hpair : (f e).pair = e.pair) (htype : (f e).type = e.type)
    (hflag : (f e).flag ≠ FLAG_CONN) (hsound : Sound params (f e)) :
    Working params T pool₀ (pool.modify v f) ∧ Request (pool.modify v f).view v (f e) := by
  have hchanges := h.changes.modify hreq.at_view hf
  obtain ⟨hl, hreq'⟩ := h.linkage.update_request hreq hpair htype hflag hsound
  exact ⟨hchanges.working hl (h.inside.update_same hv hreq.at_view hpair), hchanges.view ▸ hreq'⟩

theorem Working.modify_ring {q : Nat} {e'' : Eval} (h : Working params T pool₀ pool)
    (hring : Ring pool.view v p q e e' e'') (hv : T v) {f : Eval → Eval} (hf : Local f) (halike : Alike e (f e)) :
    Working params T pool₀ (pool.modify v f) ∧ Ring (pool.modify v f).view v p q (f e) e' e'' := by
  have hchanges := h.changes.modify hring.at_first hf
  exact ⟨hchanges.working (h.linkage.update_alike hring.at_first halike)
    (h.inside.update_same hv hring.at_first halike.pair), hchanges.view ▸ hring.update halike⟩

theorem Working.served (h : Working params T pool₀ pool) (hv : pool.view val = some e) (htype : e.type ≠ .accept)
    (closes : Bool) : Served params T pool₀ val pool closes :=
  ⟨h, fun _ => ⟨e, hv, htype⟩⟩

theorem Working.served_end (h : Working params T pool₀ pool) (hends : Ends pool.view v p e e')
    (hval : val = v ∨ val = p) (closes : Bool) : Served params T pool₀ val pool closes := by
  rcases hval with rfl | rfl
  · exact h.served hends.at_left hends.ne_accept.1 closes
  · exact h.served hends.at_right hends.ne_accept.2 closes

theorem Working.served_request (h : Working params T pool₀ pool) (hreq : Request pool.view val e) (closes : Bool) :
    Served params T pool₀ val pool closes :=
  h.served hreq.at_view (by rw [hreq.type]; decide) closes

theorem Working.served_open (h : Working params T pool₀ pool) : Served params T pool₀ val pool false :=
  ⟨h, fun hcloses => by cases hcloses⟩

end working

end ToInet.Byedpi.Proxy
