import ToInet.Lib.Bytes

-- The records of TLS: a type and a version in three bytes, the length of a fragment, and the fragment.
namespace ToInet.Lib

structure TlsRecord where
  head : Bytes
  fragment : Bytes
  length_head : head.length = 3
  length_fragment : fragment.length < 2 ^ 16

namespace TlsRecord

def encode (r : TlsRecord) : Bytes := r.head ++ beBytes 2 r.fragment.length ++ r.fragment

def encodeAll (records : List TlsRecord) : Bytes := records.flatMap encode

-- What a reader of the records gets.
def payload (records : List TlsRecord) : Bytes := records.flatMap fragment

theorem length_encode (r : TlsRecord) : r.encode.length = r.fragment.length + 5 := by
  simp only [encode, List.length_append, r.length_head, length_beBytes]
  omega

-- The two records that a fragment is cut into.
def left (r : TlsRecord) (pos : Nat) : TlsRecord where
  head := r.head
  fragment := r.fragment.take pos
  length_head := r.length_head
  length_fragment := (List.length_take_le' _ _).trans_lt r.length_fragment

def right (r : TlsRecord) (pos : Nat) : TlsRecord where
  head := r.head
  fragment := r.fragment.drop pos
  length_head := r.length_head
  length_fragment := by
    rw [List.length_drop]
    exact (Nat.sub_le _ _).trans_lt r.length_fragment

-- The same fragment in other records of the same type.
structure Refragments (records : List TlsRecord) (r : TlsRecord) : Prop where
  head : ∀ q ∈ records, q.head = r.head
  payload : payload records = r.fragment

theorem refragments_self (r : TlsRecord) : Refragments [r] r := ⟨by simp, by simp [payload]⟩

theorem Refragments.cons {records : List TlsRecord} {r : TlsRecord} {pos : Nat}
    (h : Refragments records (r.right pos)) : Refragments (r.left pos :: records) r := by
  refine ⟨List.forall_mem_cons.mpr ⟨rfl, h.head⟩, ?_⟩
  have hpayload := h.payload
  rw [TlsRecord.payload] at hpayload ⊢
  rw [List.flatMap_cons, hpayload]
  exact List.take_append_drop pos r.fragment

-- The part of a record from its n-th byte on, where n bytes hold its header.
theorem drop_encode (r : TlsRecord) {n : Nat} (h : 5 ≤ n) : r.encode.drop n = r.fragment.drop (n - 5) := by
  have hlen : (r.head ++ beBytes 2 r.fragment.length).length = 5 := by
    rw [List.length_append, r.length_head, length_beBytes]
  rw [encode, List.drop_append, hlen, List.drop_eq_nil_of_le (by omega), List.nil_append]

theorem take_encode (r : TlsRecord) {n : Nat} (h : 5 ≤ n) :
    r.encode.take n = r.head ++ beBytes 2 r.fragment.length ++ r.fragment.take (n - 5) := by
  have hlen : (r.head ++ beBytes 2 r.fragment.length).length = 5 := by
    rw [List.length_append, r.length_head, length_beBytes]
  rw [encode, List.take_append, hlen, List.take_of_length_le (by omega)]

theorem drop_encode_right (r : TlsRecord) {n pos : Nat} (h : pos + 5 ≤ n) :
    (r.right pos).encode.drop (n - pos) = r.encode.drop n := by
  rw [drop_encode _ (by omega), drop_encode _ (by omega), right, List.drop_drop]
  congr 1
  omega

end TlsRecord

end ToInet.Lib
