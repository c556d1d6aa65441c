import Mathlib.Data.List.Nodup

-- A list whose elements are addressed by a key, the first of several with one key.
namespace ToInet.Lib.KeyedList

variable {α κ : Type} [DecidableEq κ] {key : α → κ}

def ofKey (key : α → κ) (k : κ) (items : List α) : List α := items.filter fun item => key item = k

theorem mem_ofKey {k : κ} {items : List α} {item : α} :
    item ∈ ofKey key k items ↔ item ∈ items ∧ key item = k := by
  simp [ofKey]

theorem ofKey_append (k : κ) (items others : List α) :
    ofKey key k (items ++ others) = ofKey key k items ++ ofKey key k others :=
  List.filter_append items others

theorem ofKey_singleton_self {k : κ} {item : α} (h : key item = k) : ofKey key k [item] = [item] := by
  simp [ofKey, h]

theorem ofKey_singleton_of_ne {k : κ} {item : α} (h : key item ≠ k) : ofKey key k [item] = [] := by
  simp [ofKey, h]

theorem ofKey_filter (k : κ) (p : α → Bool) (items : List α) :
    ofKey key k (items.filter p) = (ofKey key k items).filter p :=
  List.filter_comm _ _ items

-- The keys are distinct where no key has two elements.
theorem nodup_iff {items : List α} : (items.map key).Nodup ↔ ∀ k, (ofKey key k items).length ≤ 1 := by
  rw [List.nodup_iff_count_le_one]
  refine forall_congr' fun k => ?_
  rw [List.count, List.countP_map, List.countP_eq_length_filter]
  rfl

theorem ofKey_eq_nil {k : κ} {items : List α} (h : ∀ item ∈ items, key item ≠ k) : ofKey key k items = [] := by
  rw [ofKey, List.filter_eq_nil_iff]
  exact fun item hitem hkey => h item hitem (of_decide_eq_true hkey)

theorem ofKey_append_cons {k : κ} {before after : List α} {item : α} (hbefore : ∀ other ∈ before, key other ≠ k)
    (hitem : key item = k) : ofKey key k (before ++ item :: after) = item :: ofKey key k after := by
  rw [ofKey_append, ofKey_eq_nil hbefore, List.nil_append]
  simp [ofKey, hitem]

theorem ofKey_append_cons_of_ne {k : κ} {before after : List α} {item : α} (hitem : key item ≠ k) :
    ofKey key k (before ++ item :: after) = ofKey key k (before ++ after) := by
  rw [ofKey_append, ofKey_append]
  simp [ofKey, hitem]

-- Where the first element with a key stands, and what writing there and deleting there does.
theorem first_cases {k : κ} {items : List α} {index : Fin items.length}
    (h : items.findFinIdx? (fun item => key item = k) = some index) :
    ∃ before after, (∀ item ∈ before, key item ≠ k) ∧ key items[index] = k ∧
      items = before ++ items[index] :: after ∧ (∀ value, items.set index value = before ++ value :: after) ∧
      items.eraseIdx index = before ++ after := by
  induction items with
  | nil => exact index.elim0
  | cons item items ih =>
      rw [List.findFinIdx?_cons] at h
      split at h
      · rename_i hkey
        obtain rfl := Option.some.inj h
        refine ⟨[], items, ?_, of_decide_eq_true hkey, rfl, fun _ => rfl, rfl⟩
        intro other hother
        cases hother
      · rename_i hkey
        obtain ⟨position, hposition, rfl⟩ := Option.map_eq_some_iff.mp h
        obtain ⟨before, after, hbefore, hfirst, hitems, hset, herase⟩ := ih hposition
        refine ⟨item :: before, after, ?_, hfirst, congrArg (item :: ·) hitems,
          fun value => congrArg (item :: ·) (hset value), congrArg (item :: ·) herase⟩
        rintro other (_ | ⟨_, hother⟩)
        · exact fun hsame => hkey (decide_eq_true hsame)
        · exact hbefore other hother

theorem first_eq_none {k : κ} {items : List α} :
    items.findFinIdx? (fun item => key item = k) = none ↔ ofKey key k items = [] := by
  rw [List.findFinIdx?_eq_none_iff, ofKey, List.filter_eq_nil_iff]

section

variable {k : κ} {items : List α} {index : Fin items.length}
  (h : items.findFinIdx? (fun item => key item = k) = some index)

include h

theorem key_first : key items[index] = k := by
  obtain ⟨_, _, _, hfirst, _⟩ := first_cases h
  exact hfirst

-- Writing at the first element with a key replaces it among those of its key.
theorem ofKey_set_first {value : α} (hvalue : key value = k) :
    ofKey key k (items.set index value) = value :: (ofKey key k items).tail := by
  obtain ⟨before, after, hbefore, hfirst, hitems, hset, _⟩ := first_cases h
  generalize items[index] = item at hfirst hitems
  rw [hset, hitems, ofKey_append_cons hbefore hvalue, ofKey_append_cons hbefore hfirst, List.tail_cons]

theorem ofKey_first : ofKey key k items = items[index] :: (ofKey key k items).tail := by
  have hset := ofKey_set_first h (key_first h)
  rwa [show items.set index items[index] = items from List.set_getElem_self _] at hset

theorem ofKey_set_of_ne {other : κ} {value : α} (hvalue : key value = k) (hne : k ≠ other) :
    ofKey key other (items.set index value) = ofKey key other items := by
  obtain ⟨before, after, _, hfirst, hitems, hset, _⟩ := first_cases h
  generalize items[index] = item at hfirst hitems
  rw [hset, hitems, ofKey_append_cons_of_ne (hvalue.trans_ne hne), ofKey_append_cons_of_ne (hfirst.trans_ne hne)]

theorem ofKey_eraseIdx_first : ofKey key k (items.eraseIdx index) = (ofKey key k items).tail := by
  obtain ⟨before, after, hbefore, hfirst, hitems, _, herase⟩ := first_cases h
  generalize items[index] = item at hfirst hitems
  rw [herase, hitems, ofKey_append_cons hbefore hfirst, ofKey_append, ofKey_eq_nil hbefore, List.nil_append,
    List.tail_cons]

theorem ofKey_eraseIdx_of_ne {other : κ} (hne : k ≠ other) :
    ofKey key other (items.eraseIdx index) = ofKey key other items := by
  obtain ⟨before, after, _, hfirst, hitems, _, herase⟩ := first_cases h
  generalize items[index] = item at hfirst hitems
  rw [herase, hitems, ofKey_append_cons_of_ne (hfirst.trans_ne hne)]

end

end ToInet.Lib.KeyedList
