import ToInet.Lib.Stream
import ToInet.FakeVpn.SniSpoofer.Prefix

namespace ToInet.FakeVpn

open ToInet.Lib

-- The writes of the loop, one for each read. Only the first read is offered to
-- spoofSni.
def pipeWithFakeTls (randomDomain : String) (firstChunk : Bool) : List Bytes → List Bytes
  | [] => []
  | buffer :: reads =>
      let toWrite := if firstChunk then (spoofSni buffer randomDomain).getD buffer else buffer
      toWrite :: pipeWithFakeTls randomDomain false reads

def sentUpstream (randomDomain : String) (reads : Reads 16384) : Bytes :=
  (pipeWithFakeTls randomDomain true reads.chunks).flatten

theorem pipeWithFakeTls_false (randomDomain : String) (reads : List Bytes) :
    pipeWithFakeTls randomDomain false reads = reads := by
  induction reads with
  | nil => rfl
  | cons buffer reads ih => simp [pipeWithFakeTls, ih]

theorem sentUpstream_eq (randomDomain : String) (reads : Reads 16384) :
    sentUpstream randomDomain reads =
      (spoofSni reads.first randomDomain).getD reads.first ++ reads.rest := by
  rw [sentUpstream, Reads.first, Reads.rest]
  cases reads.chunks with
  | nil => rfl
  | cons buffer chunks => simp [pipeWithFakeTls, pipeWithFakeTls_false]

-- Both first reads show the same host name, or none, or the name shown is
-- already the fake domain.
def SameHostName (randomDomain : String) (first second : Bytes) : Prop :=
  hostNameOf first = hostNameOf second ∨ hostNameOf first = some (toByteArray randomDomain) ∨
    hostNameOf second = some (toByteArray randomDomain)

theorem sentUpstream_eq_iff_of_prefix (randomDomain : String) (reads other : Reads 16384)
    (h : reads.bytes = other.bytes) (hle : reads.first.length ≤ other.first.length) :
    sentUpstream randomDomain reads = sentUpstream randomDomain other ↔
      SameHostName randomDomain reads.first other.first := by
  obtain ⟨more, hother, hrest⟩ := reads.first_prefix other h hle
  rw [sentUpstream_eq, sentUpstream_eq, SameHostName]
  cases hshort : hostNameOf reads.first with
  | some name =>
      -- The longer read shows the same name and is spoofed the same way.
      obtain ⟨out, hspoof, _⟩ := spoofSni_eq_some randomDomain hshort
      have hself := hspoof []
      rw [List.append_nil, List.append_nil] at hself
      rw [hother, hself, hspoof more, hrest, hostNameOf_mono more hshort]
      simp
  | none =>
      rw [spoofSni_eq_none randomDomain hshort, Option.getD_none, reads.first_append_rest, h,
        ← other.first_append_rest]
      cases hlong : hostNameOf other.first with
      | none => simp [spoofSni_eq_none randomDomain hlong]
      | some name =>
          obtain ⟨out, hspoof, heq⟩ := spoofSni_eq_some randomDomain hlong
          have hself := hspoof []
          rw [List.append_nil, List.append_nil] at hself
          rw [hself, Option.getD_some, List.append_left_inj, eq_comm, heq]
          simp

-- The bytes sent depend on the segmentation exactly when the first reads
-- disagree about the host name.
theorem sentUpstream_segmentation (randomDomain : String) (reads other : Reads 16384)
    (h : reads.bytes = other.bytes) :
    sentUpstream randomDomain reads = sentUpstream randomDomain other ↔
      SameHostName randomDomain reads.first other.first := by
  rcases Nat.le_total reads.first.length other.first.length with hle | hle
  · exact sentUpstream_eq_iff_of_prefix randomDomain reads other h hle
  · rw [eq_comm, sentUpstream_eq_iff_of_prefix randomDomain other reads h.symm hle]
    simp only [SameHostName, eq_comm (a := hostNameOf reads.first) (b := hostNameOf other.first),
      or_comm (a := hostNameOf reads.first = _)]

def wholeHello : Reads 16384 where
  chunks := [sampleHello.encode]
  nonempty := by decide
  bounded := by decide

def splitHello : Reads 16384 where
  chunks := [sampleHello.encode.take 50, sampleHello.encode.drop 50]
  nonempty := by decide
  bounded := by decide

theorem sentUpstream_segmentation_sample :
    sentUpstream "a.ru" wholeHello = sentUpstream "a.ru" splitHello ↔
      SameHostName "a.ru" wholeHello.first splitHello.first :=
  sentUpstream_segmentation "a.ru" wholeHello splitHello (by decide)

-- A ClientHello that spans two reads reaches the server with its own name.
theorem sentUpstream_splitHello_ne :
    wholeHello.bytes = splitHello.bytes ∧
      sentUpstream "web.max.ru" wholeHello ≠ sentUpstream "web.max.ru" splitHello := by
  decide

end ToInet.FakeVpn
