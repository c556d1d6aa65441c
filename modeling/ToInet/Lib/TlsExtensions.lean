import ToInet.Lib.Bytes

-- The extensions of TLS: a type and a length in two bytes each, and the data.
namespace ToInet.Lib

structure TlsExtension where
  type : Nat
  data : Bytes
  type_lt : type < 2 ^ 16
  length_lt : data.length < 2 ^ 16

namespace TlsExtension

def encode (e : TlsExtension) : Bytes := beBytes 2 e.type ++ (beBytes 2 e.data.length ++ e.data)

def encodeAll (extensions : List TlsExtension) : Bytes := extensions.flatMap encode

theorem length_encode (e : TlsExtension) : e.encode.length = e.data.length + 4 := by
  simp only [encode, List.length_append, length_beBytes]
  omega

theorem encodeAll_cons (e : TlsExtension) (extensions : List TlsExtension) :
    encodeAll (e :: extensions) = e.encode ++ encodeAll extensions :=
  List.flatMap_cons

theorem encodeAll_append (extensions more : List TlsExtension) :
    encodeAll (extensions ++ more) = encodeAll extensions ++ encodeAll more :=
  List.flatMap_append

-- Every extension takes four bytes at least.
theorem length_le_encodeAll (extensions : List TlsExtension) :
    4 * extensions.length ≤ (encodeAll extensions).length := by
  induction extensions with
  | nil => exact le_rfl
  | cons e extensions ih =>
      rw [encodeAll_cons, List.length_append, length_encode, List.length_cons]
      omega

end TlsExtension

end ToInet.Lib
