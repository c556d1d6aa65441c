import ToInet.Byedpi.ByeDpiRouter.Theorems

-- What the order of the rules decides.
namespace ToInet.Byedpi.ByeDpiRouter

open ToInet.Lib

section

variable (fold : Char → Char)

-- The rules that may come first for a domain.
def candidates (rules : LinkedMap String String) (domain : String) : List (String × String) :=
  if domain = "" then rules.entries else rules.entries.filter fun entry => covers fold domain entry.1

-- What serves a connection to the domain is the same for every order of the rules.
def OrderFree (rules : LinkedMap String String) (domain : String) : Prop :=
  ∀ other : LinkedMap String String, other.entries.Perm rules.entries → ∀ cmd,
    Runs fold (start fold other) (targetPort fold (start fold other) domain) cmd ↔
      Runs fold (start fold rules) (targetPort fold (start fold rules) domain) cmd

end

variable {fold : Char → Char} {rules other : LinkedMap String String} {domain : String}

theorem firstRule_eq (rules : LinkedMap String String) (domain : String) :
    firstRule fold rules domain = (candidates fold rules domain).head? := by
  unfold firstRule candidates
  split
  · rfl
  · rw [List.head?_filter]

theorem candidates_perm (h : other.entries.Perm rules.entries) :
    (candidates fold other domain).Perm (candidates fold rules domain) := by
  unfold candidates
  split
  · exact h
  · exact h.filter _

theorem mem_entries_of_candidate {entry : String × String} (h : entry ∈ candidates fold rules domain) :
    entry ∈ rules.entries := by
  unfold candidates at h
  split at h
  · exact h
  · exact List.mem_of_mem_filter h

theorem candidates_ne_nil (h : ∃ entry ∈ rules.entries, covers fold domain entry.1 = true) :
    candidates fold rules domain ≠ [] := by
  obtain ⟨entry, hentry, hcovers⟩ := h
  refine List.ne_nil_of_mem (a := entry) ?_
  unfold candidates
  split
  · exact hentry
  · exact List.mem_filter.mpr ⟨hentry, hcovers⟩

-- A candidate can be listed first.
theorem exists_order {entry : String × String} (h : entry ∈ candidates fold rules domain) :
    ∃ other : LinkedMap String String, other.entries.Perm rules.entries ∧ firstRule fold other domain = some entry := by
  have hperm := (List.perm_cons_erase (mem_entries_of_candidate h)).symm
  refine ⟨⟨entry :: rules.entries.erase entry, (hperm.map Prod.fst).nodup_iff.mpr rules.nodup⟩, hperm, ?_⟩
  rw [firstRule_eq]
  unfold candidates at h ⊢
  split
  · rfl
  · rename_i hdomain
    rw [if_neg hdomain] at h
    rw [List.filter_cons_of_pos (List.of_mem_filter h)]
    rfl

theorem uniqueCmds_perm (h : other.entries.Perm rules.entries) : (uniqueCmds other).Perm (uniqueCmds rules) := by
  rw [List.perm_ext_iff_of_nodup (uniqueCmds_nodup other) (uniqueCmds_nodup rules)]
  intro cmd
  rw [mem_uniqueCmds, mem_uniqueCmds]
  exact exists_congr fun entry => and_congr_left' h.mem_iff

theorem SameCmd.trans {cmd other last : String} (h : SameCmd fold cmd other) (hlast : SameCmd fold other last) :
    SameCmd fold cmd last := by
  obtain rfl | ⟨hcmd, hother⟩ := h
  · exact hlast
  · obtain rfl | ⟨_, hend⟩ := hlast
    · exact .inr ⟨hcmd, hother⟩
    · exact .inr ⟨hcmd, hend⟩

-- With instances enough, a connection is served by the command of the first rule, in any order.
theorem runs_order_iff (hcmds : (instanceCmds fold rules).length ≤ instances) (h : other.entries.Perm rules.entries)
    {first : String × String} (hfirst : firstRule fold other domain = some first) (cmd : String) :
    Runs fold (start fold other) (targetPort fold (start fold other) domain) cmd ↔ SameCmd fold first.2 cmd := by
  have hlength : 0 + (instanceCmds fold other).length ≤ instances := by
    rw [Nat.zero_add, instanceCmds, ((uniqueCmds_perm h).filter _).length_eq]
    exact hcmds
  have hport := (allocate_all_iff (uniqueCmds_nodup other) (Nat.zero_le _)).mpr hlength
  exact runs_iff (targetPort_of_firstRule hport hfirst)

-- The order does not matter exactly when all the rules for the domain have one command.
theorem orderFree_iff (fold : Char → Char) (rules : LinkedMap String String) (domain : String)
    (hcmds : (instanceCmds fold rules).length ≤ instances)
    (hcovered : ∃ entry ∈ rules.entries, covers fold domain entry.1 = true) :
    OrderFree fold rules domain ↔
      ∀ entry ∈ candidates fold rules domain, ∀ other ∈ candidates fold rules domain, SameCmd fold entry.2 other.2 := by
  constructor
  · intro hfree entry hentry other hother
    obtain ⟨first, hperm, hfirst⟩ := exists_order hentry
    obtain ⟨last, hlastPerm, hlast⟩ := exists_order hother
    have hruns := (hfree last hlastPerm other.2).mp ((runs_order_iff hcmds hlastPerm hlast _).mpr (.inl rfl))
    exact (runs_order_iff hcmds hperm hfirst _).mp ((hfree first hperm other.2).mpr hruns)
  · intro hsame other hperm cmd
    have hfirst {map : LinkedMap String String} (hmap : map.entries.Perm rules.entries) :
        ∃ first, firstRule fold map domain = some first ∧ first ∈ candidates fold rules domain := by
      obtain ⟨first, rest, hcons⟩ := List.exists_cons_of_ne_nil
        (fun hnil => candidates_ne_nil hcovered ((candidates_perm hmap).symm.trans (.of_eq hnil)).eq_nil)
      refine ⟨first, by rw [firstRule_eq, hcons, List.head?_cons], (candidates_perm hmap).mem_iff.mp ?_⟩
      rw [hcons]
      exact List.mem_cons_self
    obtain ⟨first, hfirstRule, hmem⟩ := hfirst hperm
    obtain ⟨last, hlastRule, hlast⟩ := hfirst (.refl rules.entries)
    rw [runs_order_iff hcmds hperm hfirstRule, runs_order_iff hcmds (.refl _) hlastRule]
    exact ⟨(hsame last hlast first hmem).trans, (hsame first hmem last hlast).trans⟩

-- Rules for a domain and for one below it.
def overlapping : LinkedMap String String := ⟨[("a.org", "-d1"), ("m.a.org", "-s1")], by decide⟩

def reversed : LinkedMap String String := ⟨[("m.a.org", "-s1"), ("a.org", "-d1")], by decide⟩

theorem orderFree_overlapping :
    OrderFree Char.toLower overlapping "www.a.org" ↔
      ∀ entry ∈ candidates Char.toLower overlapping "www.a.org",
        ∀ other ∈ candidates Char.toLower overlapping "www.a.org", SameCmd Char.toLower entry.2 other.2 :=
  orderFree_iff Char.toLower overlapping "www.a.org" (by decide) (by decide)

-- The lower domain is served by the command that is listed first.
theorem not_orderFree_overlapping :
    ¬∀ (fold : Char → Char) (rules : LinkedMap String String) (domain : String),
      (instanceCmds fold rules).length ≤ instances → (∃ entry ∈ rules.entries, covers fold domain entry.1 = true) →
      OrderFree fold rules domain := by
  intro h
  have hfree := h Char.toLower overlapping "m.a.org" (by decide) (by decide) reversed (List.Perm.swap ..) "-s1"
  unfold Runs at hfree
  exact absurd (hfree.mp (by decide)) (by decide)

end ToInet.Byedpi.ByeDpiRouter
