import Mathlib.Data.List.Basic

namespace ToInet.Lib

variable {α : Type*}

-- What a framing says about the pending part of a stream.
inductive Verdict where
  | more
  | packet (length : Nat)
  | malformed
deriving DecidableEq, Repr

-- A framing may depend on the absolute position at which the pending part starts.
abbrev Framing (α : Type*) := Nat → List α → Verdict

def Framing.Sound (framing : Framing α) : Prop :=
  ∀ pos pending n, framing pos pending = .packet n → 0 < n ∧ n ≤ pending.length

-- A splitter that falls back to passing bytes through after a malformed packet.
structure Splitter (α : Type*) where
  pos : Nat
  pending : List α
  disabled : Bool

namespace Splitter

def init : Splitter α := { pos := 0, pending := [], disabled := false }

-- Cuts whole packets off the pending part.
def drain (framing : Framing α) : Nat → Nat → List α → List (List α) × Splitter α
  | 0, pos, pending => ([], { pos, pending, disabled := false })
  | fuel + 1, pos, pending =>
      if pending = [] then ([], { pos, pending, disabled := false })
      else
        match framing pos pending with
        | .more => ([], { pos, pending, disabled := false })
        | .malformed => ([pending], { pos := pos + pending.length, pending := [], disabled := true })
        | .packet n =>
            let (parts, next) := drain framing fuel (pos + n) (pending.drop n)
            (pending.take n :: parts, next)

def feed (framing : Framing α) (splitter : Splitter α) (chunk : List α) :
    List (List α) × Splitter α :=
  if chunk = [] then ([], splitter)
  else if splitter.disabled then ([chunk], { splitter with pos := splitter.pos + chunk.length })
  else
    let pending := splitter.pending ++ chunk
    drain framing pending.length splitter.pos pending

def flush (splitter : Splitter α) : List (List α) × Splitter α :=
  if splitter.pending = [] then ([], splitter)
  else ([splitter.pending],
    { splitter with pos := splitter.pos + splitter.pending.length, pending := [] })

-- No element is lost or moved: what leaves and what stays is what came in.
def Conserves (splitter : Splitter α) (input : List α) (result : List (List α) × Splitter α) : Prop :=
  result.1.flatten ++ result.2.pending = splitter.pending ++ input ∧
    result.2.pos = splitter.pos + result.1.flatten.length ∧
    (result.2.disabled → result.2.pending = [])

theorem Conserves.trans {splitter next last : Splitter α} {input more : List α}
    {parts parts' : List (List α)} (h : Conserves splitter input (parts, next))
    (h' : Conserves next more (parts', last)) :
    Conserves splitter (input ++ more) (parts ++ parts', last) := by
  obtain ⟨hflat, hpos, _⟩ := h
  obtain ⟨hflat', hpos', hdis⟩ := h'
  refine ⟨?_, ?_, hdis⟩
  · rw [List.flatten_append, List.append_assoc, hflat', ← List.append_assoc, hflat, List.append_assoc]
  · rw [List.flatten_append, List.length_append, hpos', hpos, Nat.add_assoc]

theorem drain_conserves (framing : Framing α) (hs : framing.Sound) (fuel pos : Nat)
    (pending : List α) :
    Conserves { pos, pending, disabled := false } [] (drain framing fuel pos pending) := by
  induction fuel generalizing pos pending with
  | zero => simp [drain, Conserves]
  | succ fuel ih =>
      rw [drain]
      split
      · simp [Conserves]
      · cases hv : framing pos pending with
        | more => simp [Conserves]
        | malformed => simp [Conserves]
        | packet n =>
            obtain ⟨_, hn⟩ := hs pos pending n hv
            obtain ⟨hflat, hpos, hdis⟩ := ih (pos + n) (pending.drop n)
            simp only [List.append_nil] at hflat
            refine ⟨?_, ?_, hdis⟩
            · simp only [List.flatten_cons, List.append_assoc, List.append_nil, hflat,
                List.take_append_drop]
            · simp only [hpos, List.flatten_cons, List.length_append, List.length_take]
              omega

theorem feed_conserves (framing : Framing α) (hs : framing.Sound) (splitter : Splitter α)
    (chunk : List α) (hdis : splitter.disabled → splitter.pending = []) :
    Conserves splitter chunk (feed framing splitter chunk) := by
  rw [feed]
  split
  · rename_i h
    simpa [Conserves, h] using hdis
  · split
    · rename_i h
      simp [Conserves, hdis h]
    · obtain ⟨hflat, hpos, hd⟩ := drain_conserves framing hs (splitter.pending ++ chunk).length
        splitter.pos (splitter.pending ++ chunk)
      exact ⟨by simpa using hflat, hpos, hd⟩

theorem flush_conserves (splitter : Splitter α) :
    Conserves splitter [] (flush splitter) ∧ (flush splitter).2.pending = [] := by
  rw [flush]
  split
  · rename_i h
    simp [Conserves, h]
  · simp [Conserves]

end Splitter

-- The longest initial run of packets that lies within the first n elements of their
-- concatenation.
def wholePackets : List (List α) → Nat → List (List α)
  | [], _ => []
  | p :: ps, n => if p.length ≤ n then p :: wholePackets ps (n - p.length) else []

-- The framing recognises each packet at its place in the stream, whatever follows,
-- and asks for more on every proper prefix.
def Framed (framing : Framing α) : Nat → List (List α) → Prop
  | _, [] => True
  | pos, p :: ps =>
      p ≠ [] ∧ (∀ rest, framing pos (p ++ rest) = .packet p.length) ∧
        (∀ start rest, p = start ++ rest → start ≠ [] → rest ≠ [] → framing pos start = .more) ∧
        Framed framing (pos + p.length) ps

theorem Framed.wholePackets_zero {framing : Framing α} {pos : Nat} {packets : List (List α)}
    (h : Framed framing pos packets) : wholePackets packets 0 = [] := by
  cases packets with
  | nil => rfl
  | cons p ps => simp [wholePackets, h.1]

namespace Splitter

-- Draining a prefix of a framed stream emits the packets that lie within it.
theorem drain_framed (framing : Framing α) (packets : List (List α)) (fuel pos : Nat)
    (pending later : List α) (hf : Framed framing pos packets)
    (hp : pending ++ later = packets.flatten) (hfuel : pending.length ≤ fuel) :
    let result := drain framing fuel pos pending
    result.1 = wholePackets packets pending.length ∧ result.2.disabled = false ∧
      Framed framing result.2.pos (packets.drop result.1.length) := by
  induction packets generalizing fuel pos pending with
  | nil =>
      obtain ⟨rfl, rfl⟩ := List.append_eq_nil_iff.mp hp
      cases fuel <;> simp [drain, wholePackets, Framed]
  | cons p ps ih =>
      have hframed := hf
      obtain ⟨hne, hwhole, hpart, hrest⟩ := hf
      have hpos : 0 < p.length := List.length_pos_iff.mpr hne
      cases fuel with
      | zero =>
          have hnil : pending = [] := List.length_eq_zero_iff.mp (by omega)
          subst hnil
          simp [drain, wholePackets, hne, hframed]
      | succ fuel =>
          by_cases hnil : pending = []
          · simp [drain, wholePackets, hnil, hne, hframed]
          · rw [List.flatten_cons] at hp
            by_cases hle : p.length ≤ pending.length
            · -- The first packet is complete.
              obtain ⟨start, rfl⟩ : ∃ start, pending = p ++ start := by
                obtain ⟨a, ha, _⟩ | ⟨a, ha, _⟩ := List.append_eq_append_iff.mp hp
                · have hl := congrArg List.length ha
                  rw [List.length_append] at hl
                  have : a = [] := List.length_eq_zero_iff.mp (by omega)
                  exact ⟨[], by simp [ha, this]⟩
                · exact ⟨a, ha⟩
              have hi := ih fuel (pos + p.length) start hrest
                ((List.append_right_inj p).mp (by simpa using hp))
                (by rw [List.length_append] at hfuel; omega)
              simp only [drain, hnil, if_false, hwhole start, List.take_left, List.drop_left]
              rw [wholePackets, if_pos hle]
              refine ⟨?_, hi.2.1, hi.2.2⟩
              rw [hi.1, List.length_append, Nat.add_sub_cancel_left]
            · obtain ⟨rest, hsplit⟩ : ∃ rest, p = pending ++ rest := by
                obtain ⟨a, ha, _⟩ | ⟨a, ha, _⟩ := List.append_eq_append_iff.mp hp
                · exact ⟨a, ha⟩
                · have hl := congrArg List.length ha
                  rw [List.length_append] at hl
                  omega
              have hr : rest ≠ [] := by
                rintro rfl
                rw [List.append_nil] at hsplit
                exact hle (Nat.le_of_eq (congrArg List.length hsplit))
              simp [drain, hnil, hpart pending rest hsplit hnil hr, wholePackets, hle, hframed]

-- Feeds one chunk after another and keeps what each of them returns apart.
def feedAll (framing : Framing α) (splitter : Splitter α) :
    List (List α) → List (List (List α)) × Splitter α
  | [] => ([], splitter)
  | chunk :: chunks =>
      let (parts, next) := feed framing splitter chunk
      let (returned, last) := feedAll framing next chunks
      (parts :: returned, last)

theorem feedAll_conserves (framing : Framing α) (hs : framing.Sound) (splitter : Splitter α)
    (chunks : List (List α)) (hdis : splitter.disabled → splitter.pending = []) :
    let result := feedAll framing splitter chunks
    Conserves splitter chunks.flatten (result.1.flatten, result.2) := by
  induction chunks generalizing splitter with
  | nil => simpa [feedAll, Conserves] using hdis
  | cons chunk chunks ih =>
      have hfeed := feed_conserves framing hs splitter chunk hdis
      exact hfeed.trans (ih (feed framing splitter chunk).2 hfeed.2.2)

theorem feedAll_take (framing : Framing α) (splitter : Splitter α) (chunks : List (List α)) (k : Nat) :
    (feedAll framing splitter (chunks.take k)).1 = (feedAll framing splitter chunks).1.take k := by
  induction chunks generalizing splitter k with
  | nil => simp [feedAll]
  | cons chunk chunks ih =>
      cases k with
      | zero => simp [feedAll]
      | succ k => simp [feedAll, ih]

end Splitter

theorem wholePackets_add (packets : List (List α)) (n m : Nat) :
    wholePackets packets (n + m) = wholePackets packets n ++
      wholePackets (packets.drop (wholePackets packets n).length)
        (n + m - (wholePackets packets n).flatten.length) := by
  induction packets generalizing n with
  | nil => simp [wholePackets]
  | cons p ps ih =>
      by_cases hle : p.length ≤ n
      · have h := ih (n - p.length)
        rw [wholePackets, wholePackets, if_pos hle, if_pos (by omega)]
        rw [show n + m - p.length = n - p.length + m by omega, h]
        simp only [List.length_cons, List.drop_succ_cons, List.flatten_cons, List.length_append,
          List.cons_append, Nat.sub_add_eq, show n + m - p.length = n - p.length + m by omega]
      · simp [wholePackets, hle]

theorem wholePackets_append_drop (packets : List (List α)) (n : Nat) :
    wholePackets packets n ++ packets.drop (wholePackets packets n).length = packets := by
  induction packets generalizing n with
  | nil => rfl
  | cons p ps ih =>
      by_cases hle : p.length ≤ n
      · simp [wholePackets, hle, ih]
      · simp [wholePackets, hle]

theorem wholePackets_all (packets : List (List α)) (n : Nat) (h : packets.flatten.length ≤ n) :
    wholePackets packets n = packets := by
  induction packets generalizing n with
  | nil => rfl
  | cons p ps ih =>
      rw [List.flatten_cons, List.length_append] at h
      rw [wholePackets, if_pos (by omega), ih (n - p.length) (by omega)]

namespace Splitter

-- A run over the chunks of a framed stream returns, up to any chunk, the packets
-- whose last element has been delivered.
theorem feedAll_framed (framing : Framing α) (hs : framing.Sound) (packets : List (List α))
    (splitter : Splitter α) (chunks : List (List α)) (later : List α)
    (hen : splitter.disabled = false) (hf : Framed framing splitter.pos packets)
    (hp : splitter.pending ++ (chunks.flatten ++ later) = packets.flatten)
    (hnone : wholePackets packets splitter.pending.length = []) :
    (feedAll framing splitter chunks).1.flatten =
      wholePackets packets (splitter.pending.length + chunks.flatten.length) := by
  induction chunks generalizing splitter packets with
  | nil => simpa [feedAll] using hnone.symm
  | cons chunk chunks ih =>
      by_cases hnil : chunk = []
      · have hi := ih packets splitter hen hf (by simpa [hnil] using hp) hnone
        simp [feedAll, feed, hnil, hi]
      · let next := feed framing splitter chunk
        have hfeed : next = drain framing (splitter.pending ++ chunk).length splitter.pos
            (splitter.pending ++ chunk) := by
          simp [next, feed, hnil, hen]
        obtain ⟨hparts, hen', hf'⟩ := drain_framed framing packets _ splitter.pos
          (splitter.pending ++ chunk) (chunks.flatten ++ later) hf (by simpa using hp) (Nat.le_refl _)
        rw [← hfeed] at hparts hen' hf'
        obtain ⟨hflat, _, _⟩ := feed_conserves framing hs splitter chunk (by simp [hen])
        change next.1.flatten ++ next.2.pending = _ at hflat
        have hlen : next.1.flatten.length + next.2.pending.length =
            (splitter.pending ++ chunk).length := by
          rw [← List.length_append, hflat]
        have hadd := wholePackets_add packets (splitter.pending ++ chunk).length
        rw [← hparts] at hadd
        have hsub : ∀ m, (splitter.pending ++ chunk).length + m - next.1.flatten.length =
            next.2.pending.length + m := by
          intro m
          omega
        have hnone' := hadd 0
        rw [hsub, Nat.add_zero, Nat.add_zero, ← hparts, List.self_eq_append_right] at hnone'
        have hrest : next.2.pending ++ (chunks.flatten ++ later) =
            (packets.drop next.1.length).flatten := by
          have hsplit := congrArg List.flatten
            (wholePackets_append_drop packets (splitter.pending ++ chunk).length)
          rw [← hparts, List.flatten_append, ← hp, List.flatten_cons] at hsplit
          apply (List.append_right_inj next.1.flatten).mp
          rw [hsplit, ← List.append_assoc, hflat]
          simp only [List.append_assoc]
        have hi := ih (packets.drop next.1.length) next.2 hen' hf' hrest hnone'
        have hall := hadd chunks.flatten.length
        rw [hsub, ← hi] at hall
        have htotal : splitter.pending.length + (chunk :: chunks).flatten.length =
            (splitter.pending ++ chunk).length + chunks.flatten.length := by
          simp only [List.flatten_cons, List.length_append, Nat.add_assoc]
        rw [htotal, hall]
        simp only [feedAll, List.flatten_cons, next]

-- Nothing is left pending at the end of a framed stream.
theorem feedAll_framed_pending (framing : Framing α) (hs : framing.Sound) (packets : List (List α))
    (splitter : Splitter α) (chunks : List (List α))
    (hen : splitter.disabled = false) (hf : Framed framing splitter.pos packets)
    (hp : splitter.pending ++ chunks.flatten = packets.flatten)
    (hnone : wholePackets packets splitter.pending.length = []) :
    (feedAll framing splitter chunks).2.pending = [] := by
  have hall := feedAll_framed framing hs packets splitter chunks [] hen hf (by simpa using hp) hnone
  rw [← List.length_append, hp, wholePackets_all packets _ (Nat.le_refl _)] at hall
  obtain ⟨hflat, _, _⟩ := feedAll_conserves framing hs splitter chunks (by simp [hen])
  simp only [hall, hp] at hflat
  simpa using hflat

end Splitter

end ToInet.Lib
